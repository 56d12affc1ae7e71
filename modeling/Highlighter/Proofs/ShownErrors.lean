import Highlighter.Proofs.Messages
import Highlighter.Proofs.ErrorLines
import Highlighter.Proofs.Spans

/-!
# Where an error is underlined

What a record underlines follows from how its error stands on its line. A record whose token stands
at its column underlines the token (`resolve_at_token`), and one at the end of its line underlines
the last visible character (`resolve_at_end`), so the underline of a rejected document covers what
the error is about (`underline_covers_lexeme`).

A record is shown on any line that has characters (`shows_record`) and on no other
(`highlight_empty_line`). The line of an error is empty only when the error is at the end of a text
whose last line is empty, so this is the one case in which a rejected document does not show its
error (`rejected_shows_error_iff`).
-/

namespace Highlighter

open Text

namespace Text

/-- Trimming keeps what is not white space and everything before it. -/
theorem trim_end_visible (before : Text) {c : Char} (after : Text) (hc : isSpace c = false) :
    trimEnd (before ++ c :: after) = before ++ c :: trimEnd after := by
  have hreverse : (before ++ c :: after).reverse = after.reverse ++ c :: before.reverse := by simp
  have hkept : (c :: before.reverse).dropWhile isSpace = c :: before.reverse := by
    simp [hc]
  rw [trimEnd, hreverse, List.dropWhile_append, hkept]
  split
  · next hnone => simp_all [trimEnd]
  · simp [trimEnd]

/-- A text with something to be seen has a last character that is not white space. -/
theorem exists_last_visible {text : Text} (h : ∃ c ∈ text, isSpace c = false) :
    ∃ before c blanks, text = before ++ c :: blanks ∧ isSpace c = false ∧
      ∀ d ∈ blanks, isSpace d = true := by
  induction text using List.reverseRecOn with
  | nil => simp at h
  | append_singleton text last ih =>
      cases hlast : isSpace last with
      | false => exact ⟨text, last, [], rfl, hlast, by simp⟩
      | true =>
          obtain ⟨c, hmem, hc⟩ := h
          have htext : c ∈ text := by
            rcases List.mem_append.1 hmem with hmem | hmem
            · exact hmem
            · rw [List.mem_singleton.1 hmem, hlast] at hc
              cases hc
          obtain ⟨before, d, blanks, rfl, hd, hblanks⟩ := ih ⟨c, htext, hc⟩
          refine ⟨before, d, blanks ++ [last], by simp, hd, fun e he => ?_⟩
          rcases List.mem_append.1 he with he | he
          · exact hblanks e he
          · rw [List.mem_singleton.1 he, hlast]

/-- Stripping keeps every character that is no carriage return. -/
theorem mem_strip_return {text : Text} {c : Char} (h : c ∈ text) (hc : c ≠ '\r') :
    c ∈ stripReturn text := by
  rcases strip_return_cases text with hsame | hreturn
  · rw [hsame]
    exact h
  · rw [hreturn] at h
    rcases List.mem_append.1 h with hmem | hmem
    · exact hmem
    · exact absurd (List.mem_singleton.1 hmem) hc

/-- A literal is found where it stands first. -/
theorem find_start (literal rest : Text) : find? (literal ++ rest) literal = some 0 := by
  cases literal with
  | nil => cases rest <;> rfl
  | cons c cs =>
      have hprefix : (c :: cs).isPrefixOf (c :: (cs ++ rest)) = true := by simp
      rw [List.cons_append, find?, if_pos hprefix]

end Text

namespace ErrorRecord

variable {record : ErrorRecord}

/-- A record's token is found at its column if it stands there. -/
theorem token_offset_at {start token : Text} (rest : Text) (htoken : record.token = some token)
    (hcolumn : record.column - 1 = start.length) :
    record.tokenOffset? (start ++ (token ++ rest)) = some start.byteLength := by
  simp [tokenOffset?, htoken, hcolumn, find_start, char_offset_append]

/-- A record whose token stands at its column underlines the token, unless it starts with white
space. -/
theorem resolve_at_token {start tail : Text} {c : Char} (rest : Text)
    (htoken : record.token = some (c :: tail)) (hcolumn : record.column = start.length + 1)
    (hc : isSpace c = false) :
    record.resolve (start ++ (c :: tail ++ rest)) = (start.byteLength, byteLength (c :: tail)) := by
  have hlength : 0 < byteLength (c :: tail) := byte_length_pos (by simp)
  have hvisible : ¬ (trimEnd (start ++ (c :: tail ++ rest))).byteLength ≤ start.byteLength := by
    have hrest : 0 < byteLength (c :: trimEnd (tail ++ rest)) := byte_length_pos (by simp)
    rw [List.cons_append, trim_end_visible start _ hc, byte_length_append]
    omega
  have hfits : max (min (byteLength (c :: tail))
      (byteLength (start ++ (c :: tail ++ rest)) - start.byteLength)) 1 =
        byteLength (c :: tail) := by
    rw [byte_length_append, byte_length_append]
    omega
  have hskipped : record.column - 1 = start.length := by rw [hcolumn, Nat.add_sub_cancel]
  simp only [resolve, token_offset_at rest htoken hskipped, hskipped, char_offset_append,
    if_neg hvisible, htoken, Option.getD_some, hfits]

/-- The last visible character of a line that has one. -/
theorem last_visible_eq (before : Text) {c : Char} {blanks : Text} (hc : isSpace c = false)
    (hblanks : ∀ d ∈ blanks, isSpace d = true) :
    lastVisible (before ++ c :: blanks) = (before.byteLength, c.utf8Size) := by
  have hnone : trimEnd blanks = [] := by
    simpa [trimEnd] using hblanks
  rw [lastVisible, trim_end_visible before blanks hc, hnone]
  simp

/-- A record at the end of its line means the last visible character. -/
theorem resolve_past_end {line : Text} (hcolumn : record.column = line.length + 1) :
    record.resolve line = lastVisible line := by
  obtain ⟨blanks, hblanks⟩ := trim_end_prefix line
  have hlength := congrArg byteLength hblanks
  rw [byte_length_append] at hlength
  refine if_pos ?_
  rw [charOffset, hcolumn, Nat.add_sub_cancel, List.take_length]
  omega

/-- A record at the end of a line with something to be seen underlines the last character that is
not white space. -/
theorem resolve_at_end {line : Text} (hvisible : ∃ c ∈ line, isSpace c = false)
    (hcolumn : record.column = line.length + 1) :
    ∃ (before : Text) (c : Char) (blanks : Text),
      line = before ++ c :: blanks ∧ isSpace c = false ∧ (∀ d ∈ blanks, isSpace d = true) ∧
        record.resolve line = (before.byteLength, c.utf8Size) := by
  obtain ⟨before, c, blanks, rfl, hc, hblanks⟩ := exists_last_visible hvisible
  refine ⟨before, c, blanks, rfl, hc, hblanks, ?_⟩
  rw [resolve_past_end hcolumn, last_visible_eq before hc hblanks]

end ErrorRecord

open Lexeme (tokenize)
open Reader (Blames)

/-- What is found at a lexeme that is no line feed is its text. -/
theorem Found.text_of_lexeme {lexeme : Lexeme} (hfeed : lexeme.token ≠ some .newline) :
    (Found.ofLexeme lexeme).text? = some lexeme.text := by
  unfold Found.ofLexeme
  split
  · rfl
  · next htoken => exact absurd htoken hfeed
  · rfl

section Blames

variable {lexeme : Lexeme} {error : SyntaxError}

/-- An error about a lexeme that is no line feed names something that was found. -/
theorem exists_found_text (h : Blames lexeme error) (hfeed : lexeme.token ≠ some .newline) :
    ∃ found, error.found.text? = some found := by
  cases h with
  | unexpected expected => exact ⟨_, Found.text_of_lexeme hfeed⟩
  | duplicateKey key hkey => exact ⟨key, rfl⟩

/-- An error names the text of the lexeme that it is about, unless that is a quoted key. -/
theorem found_text_of_blames (h : Blames lexeme error) (hfeed : lexeme.token ≠ some .newline)
    (hquoted : ∀ key pos, error = .duplicateKey key pos → lexeme.token ≠ some .string) :
    error.found.text? = some lexeme.text := by
  cases h with
  | unexpected expected => exact Found.text_of_lexeme hfeed
  | duplicateKey key hkey =>
      unfold Grammar.keyOf? at hkey
      split at hkey
      · exact hkey.symm
      · next htoken => exact absurd htoken (hquoted key _ rfl)
      · cases hkey

end Blames

/-- The record of a rejected text has the place of the error, and the text of what was found there
if it has characters. -/
theorem record_of_read_error {text : Text} {error : SyntaxError}
    (h : readDocument text = .error error) :
    let record := ErrorRecord.locate error.toParseError
    record.line = error.pos.line ∧ record.column = error.pos.column ∧
      ∀ c tail, error.found.text? = some (c :: tail) → record.token = some (c :: tail) := by
  obtain ⟨hline, -, hcolumn, -⟩ := bounds_of_read_error h
  rw [ErrorRecord.locate_cause error hline hcolumn]
  refine ⟨rfl, rfl, fun c tail hfound => ?_⟩
  simp [ErrorRecord.ofPlace, hfound]

/-- The record of an error underlines the lexeme that the error is about. -/
theorem resolve_at_lexeme {text start : Text} {error : SyntaxError} {lexeme : Lexeme} (rest : Text)
    (h : readDocument text = .error error) (hlexeme : lexeme ∈ tokenize text)
    (hcolumn : error.pos.column = start.length + 1)
    (hfound : error.found.text? = some lexeme.text)
    (hvisible : ∀ c ∈ lexeme.text.head?, isSpace c = false) :
    (ErrorRecord.locate error.toParseError).resolve (start ++ lexeme.text ++ rest) =
      (start.byteLength, lexeme.text.byteLength) := by
  obtain ⟨-, hplace, htoken⟩ := record_of_read_error h
  obtain ⟨c, hc, -⟩ := Lexeme.exists_not_blank hlexeme
  obtain ⟨c, tail, hshape⟩ := List.exists_cons_of_ne_nil (List.ne_nil_of_mem hc)
  rw [hshape] at hfound hvisible ⊢
  rw [List.append_assoc]
  exact ErrorRecord.resolve_at_token rest (htoken c tail hfound) (hplace.trans hcolumn)
    (hvisible c rfl)

/-- The underline of an error covers exactly the lexeme that it is about, unless that is a quoted
key that is taken or starts with white space. At the end of a line it covers the last visible
character. -/
theorem underline_covers_lexeme (text : Text) (error : SyntaxError) (hreturn : '\r' ∉ text)
    (h : readDocument text = .error error) :
    let record := ErrorRecord.locate error.toParseError
    ∃ line, text.lines[error.pos.line - 1]? = some line ∧
      (error.toParseError.token ≠ none → ∃ lexeme ∈ tokenize text, lexeme.pos = error.pos ∧
        ((∀ key pos, error = .duplicateKey key pos → lexeme.token ≠ some .string) →
          (∀ c ∈ lexeme.text.head?, isSpace c = false) →
          ∃ start rest, line = start ++ lexeme.text ++ rest ∧
            error.pos.column = start.length + 1 ∧
            record.resolve line = (start.byteLength, lexeme.text.byteLength))) ∧
      (error.found = .endOfLine → ∃ (before : Text) (c : Char) (blanks : Text),
        line = before ++ c :: blanks ∧ isSpace c = false ∧ (∀ d ∈ blanks, isSpace d = true) ∧
        record.resolve line = (before.byteLength, c.utf8Size)) := by
  intro record
  obtain ⟨line, hline, hstands⟩ := stands_on_of_read_error h
  rw [rawLines, ← Text.lines_eq hreturn] at hline
  refine ⟨line, hline, ?_⟩
  cases hstands with
  | atEnd expected hlast =>
      constructor
      · intro hsome
        exact absurd rfl hsome
      · intro hfound
        cases hfound
  | atNewline expected pos hvisible hend =>
      constructor
      · intro hsome
        exact absurd rfl hsome
      · intro _
        obtain ⟨-, hplace, -⟩ := record_of_read_error h
        exact ErrorRecord.resolve_at_end hvisible (hplace.trans hend)
  | atLexeme lexeme start rest _ hlexeme hblames hfeed hsplit hcolumn =>
      rw [hblames.pos_eq] at hcolumn
      constructor
      · intro _
        refine ⟨lexeme, hlexeme, hblames.pos_eq, fun hquoted hvisible => ?_⟩
        have hfound := found_text_of_blames hblames hfeed hquoted
        refine ⟨start, rest, hsplit, hcolumn, ?_⟩
        rw [hsplit]
        exact resolve_at_lexeme rest h hlexeme hcolumn hfound hvisible
      · intro hend
        obtain ⟨found, hfound⟩ := exists_found_text hblames hfeed
        rw [hend] at hfound
        cases hfound

/-- A stray character after one that takes two bytes. -/
theorem underline_covers_lexeme_stray :
    let text := "\"é\" = ?".toList
    let error : SyntaxError := .unexpected .value (.unmatched ['?']) ⟨1, 7⟩
    readDocument text = .error error ∧ ∃ start rest : Text,
      text = start ++ ['?'] ++ rest ∧ 7 = start.length + 1 ∧
      (ErrorRecord.locate error.toParseError).resolve text = (start.byteLength, 1) := by
  intro text error
  have herror : readDocument text = .error error := error_of_map_eq (by decide +kernel)
  obtain ⟨line, hline, hcovers, -⟩ := underline_covers_lexeme text error (by decide +kernel) herror
  obtain rfl : text = line := Option.some.inj hline
  obtain ⟨lexeme, hlexeme, hpos, hcovers⟩ := hcovers nofun
  have htokens : tokenize text = [⟨some .string, "\"é\"".toList, ⟨1, 1⟩⟩,
      ⟨some .equals, ['='], ⟨1, 5⟩⟩, ⟨none, ['?'], ⟨1, 7⟩⟩] := by decide +kernel
  have hstray : lexeme = ⟨none, ['?'], ⟨1, 7⟩⟩ := by
    rw [htokens] at hlexeme
    simp only [List.mem_cons, List.not_mem_nil, or_false] at hlexeme
    rcases hlexeme with rfl | rfl | rfl
    · cases hpos
    · cases hpos
    · rfl
  subst hstray
  refine ⟨herror, hcovers nofun fun c hc => ?_⟩
  cases hc
  rfl

namespace Pass

/-- On a line without characters nothing is painted, and so no error is shown. -/
theorem highlight_empty_line (outcome : Outcome) (failures : List ParseError) (showErrors : Bool)
    (number : Nat) :
    (Pass.mk outcome (failures.map ErrorRecord.locate) showErrors).highlightLine number [] =
      { spans := [], state := .normal } := by
  let pass : Pass := ⟨outcome, failures.map ErrorRecord.locate, showErrors⟩
  let buffer := pass.paintErrors number [] (pass.paintTokens number [])
  have haligned : buffer.Aligned [] :=
    (Buffer.Aligned.paint_tokens pass number []).paint_errors number rfl
  have hcells : buffer.cells = [] := List.length_eq_zero_iff.1 haligned.length
  have hoverlays : buffer.overlays = [] := by
    refine List.eq_nil_iff_forall_not_mem.2 fun span hspan => ?_
    obtain ⟨-, hlen, hpart⟩ := haligned.overlays span hspan
    have hstop : span.start + span.len ≤ 0 := hpart.stop_le
    omega
  show LineHighlight.mk (Buffer.runs 0 buffer.cells ++ buffer.overlays)
    (if !buffer.overlays.isEmpty then .hasError else .normal) = _
  rw [hcells, hoverlays]
  rfl

/-- On a line with characters a record is shown. -/
theorem shows_record (outcome : Outcome) {record : ErrorRecord} {line : Text}
    (htoken : record.token ≠ some []) (hline : line ≠ []) :
    let shown := (Pass.mk outcome [record] true).highlightLine record.line line
    shown.state = .hasError ∧ ∃ span ∈ shown.spans, span.category = .error := by
  intro shown
  let pass : Pass := ⟨outcome, [record], true⟩
  let tokens := pass.paintTokens record.line line
  have hlength : tokens.length = line.byteLength :=
    (Buffer.Aligned.paint_tokens pass record.line line).length
  rcases hresolve : record.resolve line with ⟨start, len⟩
  obtain ⟨hpart, hlen⟩ := ErrorRecord.is_part_of_resolve htoken hline hresolve
  have hstop := hpart.stop_le
  have hlaid : tokens.overlay start len = { tokens with
      overlays := tokens.overlays ++ [⟨start, min len (tokens.length - start), .error⟩] } := by
    refine if_neg ?_
    simp only [Bool.or_eq_true, decide_eq_true_eq]
    omega
  have hbuffer : pass.paintErrors record.line line tokens = tokens.overlay start len := by
    simp [paintErrors, pass, hresolve]
  have hshown : shown = { spans := (tokens.overlay start len).spans, state := .hasError } := by
    show LineHighlight.mk (pass.paintErrors record.line line tokens).spans
      (if (pass.paintErrors record.line line tokens).hasErrors then .hasError else .normal) = _
    rw [hbuffer, if_pos (by simp [hlaid, Buffer.hasErrors])]
  rw [hshown, hlaid]
  exact ⟨rfl, _, List.mem_append_right _ (List.mem_append_right _ List.mem_cons_self), rfl⟩

end Pass

/-- The line of an error has characters, unless it is the last line and the error is at the end of
the text. -/
theorem empty_line_iff {text line : Text} {error : SyntaxError} (h : StandsOn text line error) :
    stripReturn line = [] ↔ error.found = .endOfInput ∧ text.lines.getLast? = some [] := by
  cases h with
  | atEnd expected hlast =>
      have hlines : text.lines.getLast? = some (stripReturn line) := by
        show (text.rawLines.map stripReturn).getLast? = _
        rw [List.getLast?_map, hlast]
        rfl
      simp [hlines, SyntaxError.found]
  | atNewline expected pos hvisible hend =>
      obtain ⟨c, hmem, hc⟩ := hvisible
      have hne : c ≠ '\r' := by
        rintro rfl
        cases hc
      refine iff_of_false (List.ne_nil_of_mem (mem_strip_return hmem hne)) ?_
      intro hfound
      cases hfound.1
  | atLexeme lexeme start rest _ hlexeme hblames hfeed hsplit hplace =>
      obtain ⟨c, hmem, hc⟩ := Lexeme.exists_not_blank hlexeme
      have hne : c ≠ '\r' := by
        rintro rfl
        cases hc
      have hline : c ∈ line := by simp [hsplit, hmem]
      refine iff_of_false (List.ne_nil_of_mem (mem_strip_return hline hne)) ?_
      intro hend
      obtain ⟨found, hfound⟩ := exists_found_text hblames hfeed
      rw [hend.1] at hfound
      cases hfound

/-- A rejected document shows its error on the line of the error if and only if the error is not at
the end of a text whose last line is empty. There nothing is painted at all. -/
theorem rejected_shows_error_iff (text : Text) (error : SyntaxError)
    (h : readDocument text = .error error) :
    let record := ErrorRecord.locate error.toParseError
    let pass : Pass := ⟨Recovery.parse documentParser text, [record], true⟩
    let atEmptyEnd := error.found = .endOfInput ∧ text.lines.getLast? = some []
    ∃ line, text.lines[record.line - 1]? = some line ∧
      let shown := pass.highlightLine record.line line
      ((shown.state = .hasError ∧ ∃ span ∈ shown.spans, span.category = .error) ↔ ¬ atEmptyEnd) ∧
      (atEmptyEnd → shown = { spans := [], state := .normal }) := by
  intro record pass atEmptyEnd
  obtain ⟨line, hline, hstands⟩ := stands_on_of_read_error h
  obtain ⟨hplace, -, -⟩ := record_of_read_error h
  have hempty : stripReturn line = [] ↔ atEmptyEnd := empty_line_iff hstands
  refine ⟨stripReturn line, ?_, ?_⟩
  · show (text.rawLines.map stripReturn)[record.line - 1]? = _
    rw [List.getElem?_map, hplace, hline]
    rfl
  · intro shown
    by_cases hnone : stripReturn line = []
    · have hshown : shown = { spans := [], state := .normal } := by
        show pass.highlightLine record.line (stripReturn line) = _
        rw [hnone]
        exact Pass.highlight_empty_line _ [error.toParseError] true record.line
      refine ⟨iff_of_false ?_ (not_not_intro (hempty.1 hnone)), fun _ => hshown⟩
      rw [hshown]
      intro hseen
      cases hseen.1
    · have hseen := Pass.shows_record pass.outcome
        (ErrorRecord.locate_token_ne_nil error.toParseError) hnone
      exact ⟨iff_of_true hseen (mt hempty.2 hnone), fun hend => absurd (hempty.2 hend) hnone⟩

/-- An object that is not closed, in a text that does not end with a line feed. -/
theorem rejected_shows_error_unclosed :
    let text : Text := "a = \x7b".toList
    let error : SyntaxError := .unexpected .closeBrace .endOfInput ⟨1, 6⟩
    let record := ErrorRecord.locate error.toParseError
    let shown :=
      (Pass.mk (Recovery.parse documentParser text) [record] true).highlightLine record.line text
    readDocument text = .error error ∧ shown.state = .hasError ∧
      ∃ span ∈ shown.spans, span.category = .error := by
  intro text error record shown
  have herror : readDocument text = .error error := error_of_map_eq (by decide +kernel)
  obtain ⟨line, hline, hshown, -⟩ := rejected_shows_error_iff text error herror
  have hlines : text.lines[record.line - 1]? = some text := by decide +kernel
  obtain rfl : text = line := Option.some.inj (hlines.symm.trans hline)
  refine ⟨herror, hshown.2 ?_⟩
  intro hend
  exact absurd hend.2 (by decide +kernel)

/-- An object that is not closed, in a text that ends with a line feed: the error is on the empty
line after it, its underline would be there, and nothing is shown. -/
theorem unclosed_before_feed_not_shown :
    let text : Text := "a = \x7b\n".toList
    let error : SyntaxError := .unexpected .closeBrace .endOfInput ⟨2, 1⟩
    let record := ErrorRecord.locate error.toParseError
    let pass : Pass := ⟨Recovery.parse documentParser text, [record], true⟩
    readDocument text = .error error ∧ text.lines[record.line - 1]? = some [] ∧
      record.resolve [] = (0, 1) ∧
      pass.highlightLine record.line [] = { spans := [], state := .normal } := by
  intro text error record pass
  have herror : readDocument text = .error error := error_of_map_eq (by decide +kernel)
  exact ⟨herror, by decide +kernel, by decide +kernel,
    Pass.highlight_empty_line _ [error.toParseError] true record.line⟩

end Highlighter
