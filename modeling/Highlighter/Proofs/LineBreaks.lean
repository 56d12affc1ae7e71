import Highlighter.Document
import Highlighter.Proofs.Places

/-!
# Three ways to number lines

The lexer counts line feeds as it goes, `Text.lines` splits a text at its line feeds, and a document
has its lines by every hard line break. The first two always agree: a character stands on the line
that the lexer has counted, in the column that it has counted (`char_at_cursor`). A document has one
more line for each stray break, one that is neither a line feed nor the carriage return before one
(`broken_lines_length`), so it numbers lines as the other two do if and only if its text has no
stray break (`lines_agree_iff`).
-/

namespace Highlighter

namespace Text

/-- Whether a character before a text is a stray break: a hard line break that is neither a line
feed nor the carriage return of a pair. -/
def isStray (c : Char) (after : Text) : Bool :=
  c != '\n' && (isLineBreak c && !(c == '\r' && after.head? == some '\n'))

/-- The number of stray breaks. -/
def strays : Text → Nat
  | [] => 0
  | c :: cs => strays cs + if isStray c cs then 1 else 0

/-- Whether a text has no stray break: each hard line break in it is a line feed or the carriage
return of a pair. -/
def FeedsOnly (text : Text) : Prop :=
  ∀ before c after, text = before ++ c :: after → isLineBreak c = true →
    c = '\n' ∨ c = '\r' ∧ after.head? = some '\n'

/-- A text is cut after its first character if that breaks a line and is not the carriage return of
a pair. -/
theorem split_breaks_cons (c : Char) (cs : Text) :
    splitBreaks (c :: cs) =
      if isLineBreak c && !(c == '\r' && cs.head? == some '\n') then
        ([c], (splitBreaks cs).1 :: (splitBreaks cs).2)
      else (c :: (splitBreaks cs).1, (splitBreaks cs).2) :=
  rfl

theorem is_stray_eq_false_iff {c : Char} {after : Text} :
    isStray c after = false ↔
      (isLineBreak c = true → c = '\n' ∨ c = '\r' ∧ after.head? = some '\n') := by
  cases hbreak : isLineBreak c with
  | false => simp [isStray, hbreak]
  | true =>
      by_cases hfeed : c = '\n'
      · simp [isStray, hfeed]
      · simp [isStray, hbreak, hfeed]

/-- A text has no stray break if and only if none is counted. -/
theorem strays_eq_zero_iff {text : Text} : text.strays = 0 ↔ text.FeedsOnly := by
  induction text with
  | nil => exact ⟨fun _ before c after hsplit => by simp at hsplit, fun _ => rfl⟩
  | cons c cs ih =>
      have hcount : strays (c :: cs) = 0 ↔ strays cs = 0 ∧ isStray c cs = false := by
        show strays cs + (if isStray c cs then 1 else 0) = 0 ↔ _
        cases isStray c cs <;> simp
      rw [hcount, ih, is_stray_eq_false_iff]
      constructor
      · rintro ⟨hrest, hfirst⟩ before d after hsplit
        cases before with
        | nil =>
            obtain ⟨rfl, rfl⟩ := List.cons.inj hsplit
            exact hfirst
        | cons e before =>
            obtain ⟨rfl, rfl⟩ := List.cons.inj hsplit
            exact hrest before d after rfl
      · intro hall
        refine ⟨fun before d after hsplit => ?_, hall [] c cs rfl⟩
        exact hall (c :: before) d after (by rw [hsplit, List.cons_append])

/-- A document has a line for each line feed, one for each stray break, and one more. -/
theorem broken_lines_length (text : Text) :
    text.brokenLines.length = text.lines.length + text.strays := by
  have hfeeds : text.lines.length = (splitFeeds text).2.length + 1 := by
    simp [lines]
  have hbreaks : text.brokenLines.length = (splitBreaks text).2.length + 1 := rfl
  rw [hfeeds, hbreaks]
  suffices hsuffices : (splitBreaks text).2.length = (splitFeeds text).2.length + text.strays by
    omega
  clear hfeeds hbreaks
  induction text with
  | nil => rfl
  | cons c cs ih =>
      by_cases hfeed : c = '\n'
      · subst hfeed
        show (splitBreaks cs).2.length + 1 = (splitFeeds cs).2.length + 1 + strays cs
        omega
      · have hlines : (splitFeeds (c :: cs)).2 = (splitFeeds cs).2 := by
          simp [splitFeeds, hfeed]
        have hbroken : (splitBreaks (c :: cs)).2.length =
            (splitBreaks cs).2.length + if isStray c cs then 1 else 0 := by
          rw [split_breaks_cons, isStray, bne_iff_ne.2 hfeed, Bool.true_and]
          split
          · rfl
          · rfl
        rw [hlines, hbroken]
        show _ = _ + (strays cs + _)
        omega

/-- Up to its first line feed, a text without stray breaks is one line. -/
theorem split_breaks_feed {first : Text} (rest : Text) (hfirst : '\n' ∉ first)
    (h : FeedsOnly (first ++ '\n' :: rest)) :
    splitBreaks (first ++ '\n' :: rest) =
      (first ++ ['\n'], (splitBreaks rest).1 :: (splitBreaks rest).2) := by
  induction first with
  | nil => rfl
  | cons c cs ih =>
      obtain ⟨hc, hcs⟩ := List.ne_and_not_mem_of_not_mem_cons hfirst
      have hrest : FeedsOnly (cs ++ '\n' :: rest) := fun before d after hsplit =>
        h (c :: before) d after (by rw [List.cons_append, hsplit, List.cons_append])
      have hjoined : (isLineBreak c &&
          !(c == '\r' && (cs ++ '\n' :: rest).head? == some '\n')) = false := by
        cases hbreak : isLineBreak c with
        | false => rfl
        | true =>
            obtain hfeed | ⟨hreturn, hnext⟩ := h [] c _ rfl hbreak
            · exact absurd hfeed.symm hc
            · have hnext : (cs ++ '\n' :: rest).head? = some '\n' := hnext
              rw [hreturn, hnext]
              rfl
      rw [List.cons_append, split_breaks_cons, hjoined, ih hcs hrest]
      rfl

/-- Without line feeds, a text without stray breaks is one line that does not end with a carriage
return. -/
theorem split_breaks_last {text : Text} (hfree : '\n' ∉ text) (h : text.FeedsOnly) :
    splitBreaks text = (text, []) ∧ ∀ c ∈ text, isLineBreak c = false := by
  have hplain : ∀ c ∈ text, isLineBreak c = false := by
    intro c hc
    obtain ⟨before, after, rfl⟩ := List.append_of_mem hc
    cases hbreak : isLineBreak c with
    | false => rfl
    | true =>
        obtain hfeed | ⟨-, hnext⟩ := h before c after rfl hbreak
        · exact absurd (hfeed ▸ hc) hfree
        · have hmem : '\n' ∈ after := List.mem_of_head? hnext
          exact absurd (by simp [hmem]) hfree
  refine ⟨?_, hplain⟩
  clear hfree h
  induction text with
  | nil => rfl
  | cons c cs ih =>
      obtain ⟨hc, hcs⟩ := List.forall_mem_cons.1 hplain
      rw [split_breaks_cons, hc, ih hcs]
      rfl

/-- A text without stray breaks has the same lines by its hard breaks and by its line feeds. -/
theorem broken_lines_of_feeds_only {text : Text} (h : text.FeedsOnly) :
    text.brokenLines.map chomp = text.lines := by
  obtain ⟨hsplit, hfree⟩ | ⟨first, rest, hwhole, hfree, hsplit⟩ := split_feeds_cases text
  · obtain ⟨hbroken, hplain⟩ := split_breaks_last hfree h
    have hfeed : text.getLast? ≠ some '\n' := fun hlast => hfree (List.mem_of_getLast? hlast)
    have hreturn : text.getLast? ≠ some '\r' := by
      intro hlast
      have hbreak := hplain '\r' (List.mem_of_getLast? hlast)
      simp [isLineBreak] at hbreak
    simp only [brokenLines, lines, hbroken, hsplit, List.map_cons, List.map_nil, chomp,
      if_neg hfeed, strip_return_of_ne hreturn]
  · have hrest : FeedsOnly rest := fun before c after heq =>
      h (first ++ '\n' :: before) c after (by rw [hwhole, heq]; simp)
    have ih : (brokenLines rest).map chomp = lines rest := broken_lines_of_feeds_only hrest
    subst hwhole
    have hbroken : brokenLines (first ++ '\n' :: rest) = (first ++ ['\n']) :: brokenLines rest := by
      show (splitBreaks _).1 :: (splitBreaks _).2 = _
      rw [split_breaks_feed rest hfree h]
      rfl
    have hlines : lines (first ++ '\n' :: rest) = stripReturn first :: lines rest := by
      simp only [lines, hsplit, List.map_cons]
    have hchomp : chomp (first ++ ['\n']) = stripReturn first := by
      simp [chomp]
    rw [hbroken, hlines, List.map_cons, hchomp, ih]
termination_by text.length
decreasing_by
  rw [hwhole, List.length_append, List.length_cons]
  omega

/-- A character that is no carriage return keeps its place when one at the end is stripped. -/
theorem strip_return_getElem {text : Text} {index : Nat} {c : Char} (h : text[index]? = some c)
    (hc : c ≠ '\r') : (stripReturn text)[index]? = some c := by
  by_cases hlast : text.getLast? = some '\r'
  · obtain ⟨first, rfl⟩ := List.getLast?_eq_some_iff.1 hlast
    rw [strip_return_append]
    have hindex : index < first.length := by
      by_contra hover
      obtain ⟨hlength, -⟩ := List.getElem?_eq_some_iff.1 h
      rw [List.length_append, List.length_singleton] at hlength
      have heq : index = first.length := by omega
      rw [heq, List.getElem?_concat_length] at h
      exact hc (Option.some.inj h).symm
    rwa [List.getElem?_append_left hindex] at h
  · rwa [strip_return_of_ne hlast]

/-- A character that ends no line stands on the line and in the column that the lexer counts. -/
theorem char_at_cursor (before : Text) {c : Char} (after : Text) (hfeed : c ≠ '\n')
    (hreturn : c ≠ '\r') :
    ∃ content,
      (before ++ c :: after).lines[(Position.start.advance before).line - 1]? = some content ∧
      content[(Position.start.advance before).column - 1]? = some c := by
  have hline := line_at before (c :: after)
  have hfound : (before.lastLine ++ (splitFeeds (c :: after)).1)[before.lastLine.length]? =
      some c := by
    simp [splitFeeds, hfeed]
  rw [Position.advance_start, Nat.add_sub_cancel, Nat.add_sub_cancel]
  refine ⟨_, ?_, strip_return_getElem hfound hreturn⟩
  show ((rawLines (before ++ c :: after)).map stripReturn)[before.count '\n']? = _
  rw [List.getElem?_map, hline, Option.map_some]

end Text

namespace Document

/-- The lexer and the lines by line feeds number a text alike: a character that ends no line stands
on the line, and in the column, that the lexer counts. The lines of a document are the same as many
and the same texts if and only if the text has no stray break. -/
theorem lines_agree_iff (text : Text) :
    (∀ before c after, text = before ++ c :: after → c ≠ '\n' → c ≠ '\r' →
      ∃ content, text.lines[(Position.start.advance before).line - 1]? = some content ∧
        content[(Position.start.advance before).column - 1]? = some c) ∧
    (((ofText text).lineCount = text.lines.length ∧
        ∀ number, 1 ≤ number → number ≤ text.lines.length →
          (ofText text).line? number = text.lines[number - 1]?) ↔
      text.FeedsOnly) := by
  refine ⟨?_, ?_, ?_⟩
  · rintro before c after rfl hfeed hreturn
    exact Text.char_at_cursor before after hfeed hreturn
  · rintro ⟨hcount, -⟩
    have hlength : text.lines.length + text.strays = text.lines.length := by
      rw [← Text.broken_lines_length]
      exact hcount
    rw [← Text.strays_eq_zero_iff]
    omega
  · intro hfeeds
    have hlines : (ofText text).lines = text.lines := Text.broken_lines_of_feeds_only hfeeds
    have hcount : (ofText text).lineCount = text.lines.length := by
      show text.brokenLines.length = text.lines.length
      rw [Text.broken_lines_length, Text.strays_eq_zero_iff.2 hfeeds, Nat.add_zero]
    refine ⟨hcount, fun number hfirst _ => ?_⟩
    rw [line?, if_neg (by omega), lineAt?, hlines]

/-- A form feed, which is blank to the lexer, breaks the only line of a text in two, so the entry
that the lexer has on line one is on line two of the document. -/
theorem form_feed_splits_line :
    let text : Text := "\x0ca = 1".toList
    (ofText text).lineCount = 2 ∧ text.lines.length = 1 ∧
      (ofText text).line? 1 = some ['\x0c'] ∧ text.lines[0]? = some text ∧
      (Lexeme.tokenize text).head? = some ⟨some .ident, ['a'], ⟨1, 2⟩⟩ := by
  decide

end Document

end Highlighter
