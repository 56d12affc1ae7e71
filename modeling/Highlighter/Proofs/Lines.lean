import Highlighter.Text.Lines
import Highlighter.Proofs.Scan

/-!
# The lexemes of a line

No lexeme but the line feed itself reaches over a line feed, so a text is scanned line by line
(`scans_feed`), and what stands below a line feed has the lexemes that it has by itself, only
further down (`tokenize_feed`): the lexemes of a document that stand on a line are those of the line
alone, then the line feed (`scan_line`). A line without the carriage return at its end has the same
lexemes, except that a comment loses the carriage return (`scan_strip_return`).
-/

namespace Highlighter

/-- The place some lines further down. -/
def Position.lower (pos : Position) (lines : Nat) : Position :=
  ⟨pos.line + lines, pos.column⟩

/-- A character takes a place on by the same way further down. -/
theorem Position.step_lower (pos : Position) (lines : Nat) (c : Char) :
    (pos.lower lines).step c = (pos.step c).lower lines := by
  unfold step lower
  split
  · simp only [Position.mk.injEq, and_true]
    omega
  · rfl

/-- The lexeme some lines further down. -/
def Lexeme.lower (lexeme : Lexeme) (lines : Nat) : Lexeme :=
  { lexeme with pos := lexeme.pos.lower lines }

end Highlighter

namespace Highlighter.Lexeme

/-- A literal does not reach over a line feed. -/
theorem quoted_length_feed {quote : Char} (hquote : isQuote quote = true) (text rest : Text) :
    quotedLength quote (text ++ '\n' :: rest) = quotedLength quote text := by
  have hfeed : '\n' ≠ quote := by
    rintro rfl
    cases hquote
  fun_induction quotedLength quote text with
  | case1 => simp [quotedLength.eq_def, hfeed]
  | case2 cs | case3 cs | case4 | case5 | case6 | case7 =>
      rw [List.cons_append, quotedLength.eq_def]
      simp_all

/-- The lexeme that a quote starts. -/
theorem munch_quote {c : Char} (hquote : isQuote c = true) (cs : Text) :
    munch c cs = (if (quotedLength c cs).2 then some .string else none,
      (quotedLength c cs).1 + 1) := by
  obtain rfl | rfl : c = '"' ∨ c = '\'' := by simpa [isQuote] using hquote
  · rfl
  · rfl

/-- The lexeme that two slashes start. -/
theorem munch_slashes {cs : Text} (h : cs.head? = some '/') :
    munch '/' cs = (some .comment, (cs.takeWhile (· ≠ '\n')).length + 1) := by
  simp [munch, charToken?, h]

/-- What follows a lexeme does not change it if it cannot be joined to it. -/
theorem munch_append {c : Char} {cs rest : Text}
    (hword : ∀ d ∈ rest.head?, Text.isIdentChar d = false)
    (hnumber : ∀ d ∈ rest.head?, Number.isPart Char.isDigit d = false)
    (hslash : '/' ∉ rest.head?)
    (hquote : isQuote c = true → quotedLength c (cs ++ rest) = quotedLength c cs)
    (hcomment : c = '/' → cs.head? = some '/' →
      (cs ++ rest).takeWhile (· ≠ '\n') = cs.takeWhile (· ≠ '\n')) :
    munch c (cs ++ rest) = munch c cs := by
  have hslashes : (cs ++ rest).head? = some '/' ↔ cs.head? = some '/' := by
    cases cs with
    | nil => simpa using hslash
    | cons d ds => simp
  have hwhole : Number.length Char.isDigit (c :: (cs ++ rest)) =
      Number.length Char.isDigit (c :: cs) := Number.number_length_append hnumber (c :: cs)
  by_cases hquoted : isQuote c = true
  · rw [munch_quote hquoted, munch_quote hquoted, hquote hquoted]
  by_cases hslashed : c = '/' ∧ cs.head? = some '/'
  · obtain ⟨rfl, hhead⟩ := hslashed
    rw [munch_slashes hhead, munch_slashes (hslashes.2 hhead), hcomment rfl hhead]
  · have hopen : (decide (c = '/') && decide (cs.head? = some '/')) = false := by
      simpa using hslashed
    have hplain : (decide (c = '"') || decide (c = '\'')) = false := by
      simpa [isQuote] using hquoted
    simp only [munch, Text.take_while_append cs hword, Number.number_length_append hnumber, hwhole,
      hslashes, hopen, hplain]
    rfl

/-- A lexeme does not reach over a line feed. -/
theorem munch_feed (c : Char) (cs rest : Text) :
    munch c (cs ++ '\n' :: rest) = munch c cs := by
  refine munch_append ?_ ?_ (by simp) (fun hquote => quoted_length_feed hquote cs rest) ?_
  · rintro d ⟨⟩
    decide
  · rintro d ⟨⟩
    decide
  · intro _ _
    exact Text.take_while_append cs (by simp)

/-- The lexemes of two texts with a line feed between them are those of both with a line feed
between them. -/
theorem scans_feed {pos : Position} {first rest : Text} {lexemes others : List Lexeme}
    (h : Scans pos first lexemes) (hrest : Scans ((pos.advance first).step '\n') rest others) :
    Scans pos (first ++ '\n' :: rest)
      (lexemes ++ ⟨some .newline, ['\n'], pos.advance first⟩ :: others) := by
  induction h with
  | nil pos => exact .lexeme _ _ _ _ ['\n'] _ _ rfl rfl rfl hrest
  | blank pos c cs lexemes hblank hcs ih => exact .blank _ _ _ _ hblank (ih hrest)
  | lexeme pos c cs token word after lexemes hblank hmunch hsplit hafter ih =>
      have hfirst : c :: (cs ++ '\n' :: rest) = word ++ (after ++ '\n' :: rest) := by
        rw [← List.append_assoc, ← hsplit, List.cons_append]
      rw [hsplit, Position.advance_append] at hrest ⊢
      rw [List.append_assoc, ← hfirst]
      exact .lexeme _ _ _ _ _ _ _ hblank ((munch_feed c cs rest).trans hmunch) hfirst (ih hrest)

/-- A text is scanned line by line. -/
theorem scan_feed (line : Nat) {first : Text} (hfirst : '\n' ∉ first) (rest : Text) :
    scan ⟨line, 1⟩ 0 (first ++ '\n' :: rest) =
      scan ⟨line, 1⟩ 0 first ++
        ⟨some .newline, ['\n'], ⟨line, first.length + 1⟩⟩ :: scan ⟨line + 1, 1⟩ 0 rest := by
  have hpos : Position.advance ⟨line, 1⟩ first = ⟨line, first.length + 1⟩ := by
    rw [Position.advance_in_line _ hfirst, Nat.add_comm]
  have hscans := scans_feed (scans_scan ⟨line, 1⟩ first)
    (scans_scan ((Position.advance ⟨line, 1⟩ first).step '\n') rest)
  rw [hpos] at hscans
  exact (scans_iff.1 hscans).symm

/-- A text that starts further down has the same lexemes further down. -/
theorem scan_lower (pos : Position) (lines skip : Nat) (text : Text) :
    scan (pos.lower lines) skip text = (scan pos skip text).map (·.lower lines) := by
  induction text generalizing pos skip with
  | nil => rfl
  | cons c cs ih =>
      cases skip with
      | succ skip => rw [scan, scan, Position.step_lower, ih]
      | zero =>
          rw [scan, scan]
          split
          · rw [Position.step_lower, ih]
          · rw [Position.step_lower]
            exact congrArg (List.cons _) (ih _ _)

/-- The lexemes of two texts with a line feed between them are those of the first, the line feed
where the first ends, and those of the second, as many lines further down as the first has. -/
theorem tokenize_feed (first second : Text) :
    tokenize (first ++ '\n' :: second) =
      tokenize first ++ ⟨some .newline, ['\n'], endPosition first⟩ ::
        (tokenize second).map (·.lower (endPosition first).line) := by
  have hpos : (endPosition first).step '\n' = Position.start.lower (endPosition first).line := by
    simp [Position.step, Position.start, Position.lower, Nat.add_comm]
  have hsecond : Scans ((endPosition first).step '\n') second
      ((tokenize second).map (·.lower (endPosition first).line)) := by
    rw [hpos, scans_iff, scan_lower]
    rfl
  exact (scans_iff.1 (scans_feed (scans_scan Position.start first) hsecond)).symm

/-- Lexemes of a text without line feeds stand on its line. -/
theorem line_of_mem_scan {pos : Position} {text : Text} {lexeme : Lexeme} (htext : '\n' ∉ text)
    (h : lexeme ∈ scan pos 0 text) : lexeme.pos.line = pos.line := by
  obtain ⟨before, after, rfl, hpos, -⟩ := exists_of_mem_scans (scans_scan pos text) h
  have hbefore : '\n' ∉ before := fun hmem => htext (by simp [hmem])
  rw [hpos, Position.advance_in_line _ hbefore]

/-- Lexemes stand no higher than their text. -/
theorem line_le_of_mem_scan {pos : Position} {text : Text} {lexeme : Lexeme}
    (h : lexeme ∈ scan pos 0 text) : pos.line ≤ lexeme.pos.line := by
  obtain hpos | hpos := (scans_sorted (scans_scan pos text)).1 lexeme h
  · rw [hpos]
  · unfold Position.Before at hpos
    omega

end Highlighter.Lexeme

namespace Highlighter.Text

/-- A text is one line, or a line, a line feed and further lines. -/
theorem split_feeds_cases (text : Text) :
    (splitFeeds text = (text, []) ∧ '\n' ∉ text) ∨
      ∃ line rest, text = line ++ '\n' :: rest ∧ '\n' ∉ line ∧
        splitFeeds text = (line, (splitFeeds rest).1 :: (splitFeeds rest).2) := by
  induction text with
  | nil => exact .inl ⟨rfl, by simp⟩
  | cons c cs ih =>
      by_cases hc : c = '\n'
      · subst hc
        exact .inr ⟨[], cs, rfl, by simp, rfl⟩
      · obtain ⟨hsplit, hfree⟩ | ⟨line, rest, rfl, hfree, hsplit⟩ := ih
        · exact .inl ⟨by simp [splitFeeds, hsplit, hc], by simp [hfree, Ne.symm hc]⟩
        · exact .inr ⟨c :: line, rest, rfl, by simp [hfree, Ne.symm hc],
            by simp [splitFeeds, hsplit, hc]⟩

theorem strip_return_append (line : Text) : stripReturn (line ++ ['\r']) = line := by
  simp [stripReturn]

theorem strip_return_of_ne {line : Text} (h : line.getLast? ≠ some '\r') :
    stripReturn line = line := if_neg h

/-- A text is as without a carriage return at its end, or has one more. -/
theorem strip_return_cases (text : Text) :
    stripReturn text = text ∨ text = stripReturn text ++ ['\r'] := by
  by_cases hlast : text.getLast? = some '\r'
  · obtain ⟨first, rfl⟩ := List.getLast?_eq_some_iff.1 hlast
    exact .inr (by rw [strip_return_append])
  · exact .inl (strip_return_of_ne hlast)

end Highlighter.Text

namespace Highlighter.Lexeme

/-- The lexemes of a text are those before a line, those of the line, and, from a line feed on,
those after it. -/
theorem scan_line (start : Nat) {text line : Text} {n : Nat}
    (h : ((Text.splitFeeds text).1 :: (Text.splitFeeds text).2)[n]? = some line) :
    '\n' ∉ line ∧ ∃ before after,
      scan ⟨start, 1⟩ 0 text = before ++ scan ⟨start + n, 1⟩ 0 line ++ after ∧
      (∀ lexeme ∈ before, lexeme.pos.line < start + n) ∧
      (∀ lexeme ∈ before.getLast?, lexeme.token = some .newline) ∧
      (∀ lexeme ∈ after.head?, lexeme.token = some .newline) ∧
      ∀ lexeme ∈ after,
        lexeme.token = some .newline ∧ lexeme.pos = ⟨start + n, line.length + 1⟩ ∨
          start + n < lexeme.pos.line := by
  induction n generalizing text start with
  | zero =>
      obtain ⟨hsplit, hfree⟩ | ⟨first, rest, rfl, hfree, hsplit⟩ := Text.split_feeds_cases text
      · obtain rfl : text = line := by simpa [hsplit] using h
        exact ⟨hfree, [], [], by simp⟩
      · obtain rfl : first = line := by simpa [hsplit] using h
        refine ⟨hfree, [], _, by simpa using scan_feed start hfree rest, by simp, by simp, by simp,
          ?_⟩
        rintro lexeme (_ | ⟨_, hlexeme⟩)
        · exact .inl ⟨rfl, rfl⟩
        · exact .inr (line_le_of_mem_scan hlexeme)
  | succ n ih =>
      obtain ⟨hsplit, hfree⟩ | ⟨first, rest, rfl, hfree, hsplit⟩ := Text.split_feeds_cases text
      · simp [hsplit] at h
      · have hrest : ((Text.splitFeeds rest).1 :: (Text.splitFeeds rest).2)[n]? = some line := by
          simpa [hsplit] using h
        obtain ⟨hline, before, after, hscan, hbefore, hlast, hhead, hafter⟩ :=
          ih (start + 1) hrest
        rw [show start + 1 + n = start + (n + 1) by omega] at hscan hbefore hafter
        refine ⟨hline, scan ⟨start, 1⟩ 0 first ++
          ⟨some .newline, ['\n'], ⟨start, first.length + 1⟩⟩ :: before, after, ?_, ?_, ?_, hhead,
          hafter⟩
        · simp [scan_feed start hfree, hscan]
        · intro lexeme hlexeme
          obtain hlexeme | hlexeme := List.mem_append.1 hlexeme
          · have := line_of_mem_scan hfree hlexeme
            simp only at this
            omega
          · obtain rfl | hlexeme := List.mem_cons.1 hlexeme
            · simp
            · exact hbefore lexeme hlexeme
        · cases before with
          | nil => simp
          | cons second others => simpa using hlast

/-- A lexeme without the carriage return at its end. -/
def stripReturn (lexeme : Lexeme) : Lexeme :=
  { lexeme with text := Text.stripReturn lexeme.text }

/-- Only a comment can end with a carriage return. -/
theorem comment_of_return {token : Token} {word rest : Text} (h : Munched (some token) word rest)
    (hlast : word.getLast? = some '\r') : token = .comment := by
  obtain htoken | htoken | htoken | hpart | hpart := char_of_munched h (List.mem_of_getLast? hlast)
  · subst htoken
    obtain ⟨quote, body, rfl, hquote, hliteral⟩ := literal_of_munched h
    have hbody := hliteral.getLast?
    simp_all [List.getLast?_cons, isQuote]
  · exact htoken
  · cases htoken
  · cases hpart
  · cases hpart

/-- A lexeme stays as it is if it is no comment that ends with a carriage return. -/
theorem strip_return_of_munched {lexeme : Lexeme} {token : Token} {rest : Text}
    (h : Munched (some token) lexeme.text rest)
    (hlast : token = .comment → lexeme.text.getLast? ≠ some '\r') :
    stripReturn lexeme = lexeme := by
  rw [stripReturn, Text.strip_return_of_ne]
  intro hreturn
  exact hlast (comment_of_return h hreturn) hreturn

/-- A carriage return after the lexeme does not change it. -/
theorem munch_return {c : Char} {cs : Text} {token : Token} {n : Nat}
    (h : munch c (cs ++ ['\r']) = (some token, n)) (hn : n ≤ cs.length + 1) :
    munch c cs = (some token, n) := by
  rw [← h]
  symm
  refine munch_append (by simp [Text.isIdentChar]) (by simp [Number.isPart]) (by simp) ?_ ?_
  · intro hquote
    rw [munch_quote hquote] at h
    rcases hlength : quotedLength c (cs ++ ['\r']) with ⟨m, closed⟩
    obtain ⟨⟨rfl, -⟩, rfl⟩ : (closed = true ∧ _) ∧ m + 1 = n := by simpa [hlength] using h
    have hliteral := literal_of_quoted_length hlength
    rw [List.take_append_of_le_length (by omega)] at hliteral
    have hclosed := quoted_length_of_literal hquote hliteral (cs.drop m)
    rw [List.take_append_drop, List.length_take_of_le (by omega)] at hclosed
    exact hclosed.symm
  · rintro rfl hhead
    rw [munch_slashes (by cases cs <;> simp_all)] at h
    rw [List.takeWhile_append] at h ⊢
    split at h
    · next hall =>
        have hlong := (Prod.mk.inj h).2
        simp at hlong
        omega
    · next hall => rw [if_neg hall]

/-- On a line nothing follows a comment. -/
theorem eq_nil_of_comment {word rest : Text} (h : Munched (some .comment) word rest)
    (hfeed : '\n' ∉ rest) : rest = [] := by
  obtain ⟨-, -, -, -, hrest⟩ := slashes_of_munched h
  cases rest with
  | nil => rfl
  | cons c cs => exact absurd (hrest c rfl) (by simp_all [eq_comm])

/-- Two slashes make the rest of a line a comment. -/
theorem scans_comment (pos : Position) {tail : Text} (hslash : tail.head? = some '/')
    (hfeed : '\n' ∉ tail) : Scans pos ('/' :: tail) [⟨some .comment, '/' :: tail, pos⟩] := by
  have hline : tail.takeWhile (· ≠ '\n') = tail := by
    rw [List.takeWhile_eq_self_iff]
    intro c hc
    have hne : c ≠ '\n' := fun heq => hfeed (heq ▸ hc)
    simpa using hne
  refine .lexeme _ _ _ _ ('/' :: tail) [] [] rfl ?_ (by simp) (.nil _)
  rw [munch_slashes hslash, hline, List.length_cons]

/-- A carriage return at the end of a line is blank or the end of a comment. -/
theorem scans_strip_return {pos : Position} {line : Text} {lexemes : List Lexeme}
    (h : Scans pos (line ++ ['\r']) lexemes) (hfeed : '\n' ∉ line)
    (hmatched : ∀ lexeme ∈ lexemes, lexeme.token ≠ none) :
    Scans pos line (lexemes.map stripReturn) := by
  generalize hwhole : line ++ ['\r'] = whole at h
  induction h generalizing line with
  | nil pos => simp at hwhole
  | blank pos c cs lexemes hblank hrest ih =>
      cases line with
      | nil =>
          obtain ⟨rfl, rfl⟩ : '\r' = c ∧ [] = cs := by simpa using hwhole
          cases hrest
          exact .nil pos
      | cons d ds =>
          obtain ⟨rfl, hcs⟩ : d = c ∧ ds ++ ['\r'] = cs := by simpa using hwhole
          exact .blank _ _ _ _ hblank (ih (by simp_all) hmatched hcs)
  | lexeme pos c cs token word rest lexemes hblank hmunch hsplit hrest ih =>
      obtain ⟨htoken, hothers⟩ := List.forall_mem_cons.1 hmatched
      obtain ⟨token, rfl⟩ := Option.ne_none_iff_exists'.1 htoken
      have hshape := munched_of_split hmunch hsplit
      cases line with
      | nil =>
          obtain ⟨rfl, -⟩ : '\r' = c ∧ [] = cs := by simpa using hwhole
          cases hblank
      | cons d ds =>
          obtain ⟨rfl, rfl⟩ : d = c ∧ ds ++ ['\r'] = cs := by simpa using hwhole
          obtain rfl | ⟨rest, last, rfl⟩ := List.eq_nil_or_concat' rest
          · -- The lexeme takes the whole line, so it is a comment.
            obtain rfl : d :: ds ++ ['\r'] = word := by simpa using hsplit
            obtain rfl := comment_of_return hshape List.getLast?_concat
            obtain ⟨tail, htail, hhead, -⟩ := slashes_of_munched hshape
            obtain ⟨rfl, rfl⟩ : d = '/' ∧ ds ++ ['\r'] = tail := by simpa using htail
            have hslash : ds.head? = some '/' := by cases ds <;> simp_all
            have hstrip : stripReturn ⟨some .comment, '/' :: ds ++ ['\r'], pos⟩ =
                ⟨some .comment, '/' :: ds, pos⟩ := by
              rw [stripReturn, Text.strip_return_append]
            cases hrest
            rw [List.map_singleton, hstrip]
            exact scans_comment pos hslash (List.not_mem_of_not_mem_cons hfeed)
          · have hparts : d :: ds ++ ['\r'] = word ++ rest ++ [last] := by
              rw [List.append_assoc, ← hsplit, List.cons_append]
            obtain ⟨hline, hlast⟩ := List.append_inj' hparts rfl
            obtain rfl : '\r' = last := by simpa using hlast
            rw [hline] at hfeed
            have hstrip : stripReturn ⟨some token, word, pos⟩ = ⟨some token, word, pos⟩ := by
              refine strip_return_of_munched hshape ?_
              rintro rfl
              -- A comment would take the carriage return too.
              have hnone := eq_nil_of_comment hshape (by simp_all)
              simp at hnone
            have hlength : word.length ≤ ds.length + 1 := by
              have := congrArg List.length hline
              simp only [List.length_cons, List.length_append] at this
              omega
            rw [List.map_cons, hstrip]
            exact .lexeme _ _ _ _ _ rest _ hblank (munch_return hmunch hlength) hline
              (ih (by simp_all) hothers rfl)

/-- A line has the same lexemes without the carriage return at its end, except that a comment loses
it. -/
theorem scan_strip_return {pos : Position} {line : Text} (hfeed : '\n' ∉ line)
    (hmatched : ∀ lexeme ∈ scan pos 0 line, lexeme.token ≠ none) :
    scan pos 0 (Text.stripReturn line) = (scan pos 0 line).map stripReturn := by
  obtain hline | hline := Decidable.em (line.getLast? = some '\r')
  · obtain ⟨line, rfl⟩ := List.getLast?_eq_some_iff.1 hline
    rw [Text.strip_return_append]
    exact (scans_iff.1 (scans_strip_return (scans_scan _ _) (by simp_all) hmatched)).symm
  · rw [Text.strip_return_of_ne hline, List.map_congr_left (g := id), List.map_id]
    intro lexeme hlexeme
    obtain ⟨before, after, rfl, -, hshape⟩ := exists_of_mem_scans (scans_scan _ _) hlexeme
    obtain ⟨token, htoken⟩ := Option.ne_none_iff_exists'.1 (hmatched _ hlexeme)
    rw [htoken] at hshape
    refine strip_return_of_munched hshape ?_
    rintro rfl hreturn
    -- A comment ends the line, so the line would end with a carriage return.
    obtain rfl := eq_nil_of_comment hshape (by simp_all)
    exact hline (by simp [hreturn])

end Highlighter.Lexeme
