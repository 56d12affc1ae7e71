import Highlighter.Proofs.Places
import Highlighter.Proofs.Salvage
import Highlighter.Proofs.Words

/-!
# The line that an error stands on

The line of a place holds what stands before the place on it, as many characters as its column says,
and then what stands after it. So a lexeme that is no line feed stands on its line whole
(`line_of_mem`), a line feed stands after the lexeme before it (`line_of_newline`), and the end of
the text is on the last line (`line_of_end`).

A line feed is refused only between the key of an entry and its value, so the line that it ends has
a token on it (`previous_of_newline`). `StandsOn` lists the three ways in which an error stands on
its line, and `stands_on_of_read_error` says that there is no other.
-/

namespace Highlighter

namespace Lexeme

/-- A lexeme that is no line feed holds none. -/
theorem feedless_of_munch {c : Char} {cs word rest : Text} {token : Option Token}
    (h : munch c cs = (token, word.length)) (hsplit : c :: cs = word ++ rest)
    (htoken : token ≠ some .newline) : '\n' ∉ word := by
  intro hmem
  obtain ⟨first, second, rfl⟩ := List.append_of_mem hmem
  cases first with
  | nil =>
      obtain ⟨rfl, -⟩ : c = '\n' ∧ _ := List.cons_eq_cons.1 hsplit
      exact htoken (Prod.mk.inj h).1.symm
  | cons d first =>
      -- Cut off at the line feed, the text would have the same lexeme, which is longer.
      obtain ⟨rfl, rfl⟩ : c = d ∧ cs = first ++ '\n' :: (second ++ rest) := by simpa using hsplit
      rw [munch_feed] at h
      obtain ⟨word, rest, hword, hlength, -⟩ := munched_of_munch h
      have htotal := congrArg List.length hword
      simp only [List.length_cons, List.length_append] at htotal hlength
      omega

/-- A lexeme of a text is the one that its first character starts, which is not blank. -/
theorem munch_of_mem_scans {pos : Position} {text : Text} {lexemes : List Lexeme} {lexeme : Lexeme}
    (h : Scans pos text lexemes) (hlexeme : lexeme ∈ lexemes) :
    ∃ c cs rest, isBlank c = false ∧ munch c cs = (lexeme.token, lexeme.text.length) ∧
      c :: cs = lexeme.text ++ rest := by
  induction h with
  | nil => cases hlexeme
  | blank _ _ _ _ _ _ ih => exact ih hlexeme
  | lexeme _ c cs _ _ rest _ hblank hmunch hsplit _ ih =>
      rcases List.mem_cons.1 hlexeme with rfl | hlater
      · exact ⟨c, cs, rest, hblank, hmunch, hsplit⟩
      · exact ih hlater

variable {text : Text} {lexeme : Lexeme}

/-- A lexeme of a text that is no line feed holds none. -/
theorem feedless_of_mem (h : lexeme ∈ tokenize text) (htoken : lexeme.token ≠ some .newline) :
    '\n' ∉ lexeme.text := by
  obtain ⟨c, cs, rest, -, hmunch, hsplit⟩ := munch_of_mem_scans (scans_scan _ text) h
  exact feedless_of_munch hmunch hsplit htoken

/-- A lexeme of a text has a character that is not blank. -/
theorem exists_not_blank (h : lexeme ∈ tokenize text) : ∃ c ∈ lexeme.text, isBlank c = false := by
  obtain ⟨c, cs, rest, hblank, hmunch, hsplit⟩ := munch_of_mem_scans (scans_scan _ text) h
  obtain ⟨d, tail, htext⟩ := List.exists_cons_of_ne_nil (munched_of_split hmunch hsplit).ne_nil
  rw [htext] at hsplit ⊢
  obtain ⟨rfl, -⟩ := List.cons_eq_cons.1 hsplit
  exact ⟨c, List.mem_cons_self, hblank⟩

/-- A lexeme that is no line feed stands on its line after as many characters as its column says. -/
theorem line_of_mem (h : lexeme ∈ tokenize text) (htoken : lexeme.token ≠ some .newline) :
    ∃ start rest, lexeme.pos.column = start.length + 1 ∧
      text.rawLines[lexeme.pos.line - 1]? = some (start ++ lexeme.text ++ rest) := by
  obtain ⟨before, after, htext, hpos, -⟩ := exists_of_mem_scans (scans_scan _ text) h
  rw [Position.advance_start] at hpos
  refine ⟨before.lastLine, (Text.splitFeeds after).1, by rw [hpos], ?_⟩
  rw [hpos, Nat.add_sub_cancel, htext]
  exact Text.line_at_word before after (feedless_of_mem h htoken)

/-- A line feed stands at the end of its line, which holds the lexeme before it unless that is a
line feed too. -/
theorem line_of_newline {first others : List Lexeme} {previous : Lexeme}
    (h : tokenize text = first ++ previous :: lexeme :: others)
    (hprevious : previous.token ≠ some .newline) (htoken : lexeme.token = some .newline) :
    ∃ start gap, lexeme.pos.column = (start ++ previous.text ++ gap).length + 1 ∧
      text.rawLines[lexeme.pos.line - 1]? = some (start ++ previous.text ++ gap) := by
  have hmem : previous ∈ tokenize text := by simp [h]
  have hfeed := feedless_of_mem hmem hprevious
  have hscans : Scans Position.start text (first ++ previous :: lexeme :: others) :=
    h ▸ scans_scan Position.start text
  obtain ⟨before, after, rfl, hscans, -⟩ := scans_append hscans
  obtain ⟨blanks, after, rfl, -, -, -, hscans⟩ := scans_cons hscans
  obtain ⟨gap, after, rfl, hgap, hpos, hshape, -⟩ := scans_cons hscans
  rw [htoken] at hshape
  have hspelled : lexeme.text = ['\n'] := text_of_char_token rfl hshape
  have hword : '\n' ∉ previous.text ++ gap := by
    intro hmem
    rcases List.mem_append.1 hmem with hmem | hmem
    · exact hfeed hmem
    · exact absurd (hgap _ hmem) (by decide)
  have hplace : lexeme.pos = ⟨(before ++ blanks).count '\n' + 1,
      (Text.lastLine (before ++ blanks)).length + 1 + (previous.text ++ gap).length⟩ := by
    have hstart := Position.advance_start (before ++ blanks)
    have hend := Position.advance_in_line (Position.start.advance (before ++ blanks)) hword
    rw [hstart] at hend
    rw [← hend, ← hstart, hpos]
    simp only [Position.advance_append]
  have hline := Text.line_at_word (before ++ blanks) ('\n' :: after) hword
  refine ⟨Text.lastLine (before ++ blanks), gap, ?_, ?_⟩
  · rw [hplace]
    simp only [List.length_append]
    omega
  · rw [hplace, hspelled]
    simpa [Text.splitFeeds] using hline

/-- The end of a text is on its last line. -/
theorem line_of_end (text : Text) :
    ∃ line, text.rawLines[(endPosition text).line - 1]? = some line ∧
      text.rawLines.getLast? = some line := by
  have hdrop := Text.drop_feeds text []
  have hline := Text.line_at text []
  rw [List.append_nil] at hdrop hline
  refine ⟨text.lastLine, ?_, ?_⟩
  · rw [endPosition, Position.advance_start, Nat.add_sub_cancel, hline, Text.splitFeeds,
      List.append_nil]
  · have hlast := congrArg List.getLast? hdrop
    rw [List.getLast?_drop] at hlast
    split at hlast
    · cases hlast
    · simpa [Text.splitFeeds] using hlast

end Lexeme

namespace Reader

open Grammar (keyOf?)

variable {state next : State} {lexeme : Lexeme} {error : SyntaxError}

/-- Whether an entry has its key but not yet its value, so that the line may not end. -/
def State.inEntry : State → Bool
  | .equals _ _ _ _ => true
  | .value _ => true
  | _ => false

/-- A line feed is refused only within an entry. -/
theorem in_entry_of_newline (h : state.step lexeme = .error error)
    (htoken : lexeme.token = some .newline) : state.inEntry = true := by
  cases state with
  | equals => rfl
  | value => rfl
  | item => simp [State.step, readItem, htoken] at h
  | entryEnd => simp [State.step, readEntryEnd, htoken] at h
  | element => simp [State.step, readElement, htoken] at h
  | elementEnd => simp [State.step, readElementEnd, htoken] at h
  | stopped => cases h

/-- A lexeme with the rest of an entry after it, its key or its equals sign, is no line feed. -/
theorem token_of_in_entry (h : Taken state lexeme next) (hentry : next.inEntry = true) :
    lexeme.token ≠ none ∧ lexeme.token ≠ some .newline := by
  cases h with
  | key braces body _ key hkey =>
      constructor
      · intro htoken
        simp [keyOf?, htoken] at hkey
      · intro htoken
        simp [keyOf?, htoken] at hkey
  | equals _ _ _ _ _ htoken => simp [htoken]
  | scalar _ _ _ _ _ _ _ hcomplete | closeObject _ _ _ _ _ _ _ hcomplete
  | closeList _ _ _ _ _ _ _ _ hcomplete =>
      obtain ⟨_, _, _, _, _, rfl⟩ | ⟨_, _, _, _, rfl⟩ := complete_cases hcomplete <;> cases hentry
  | _ => cases hentry

/-- Before a line feed that is refused stands a token that is no line feed. -/
theorem previous_of_newline {before : List Lexeme} {last : State}
    (hrun : State.initial.run before = .ok last) (hstep : last.step lexeme = .error error)
    (htoken : lexeme.token = some .newline) :
    ∃ first previous, before = first ++ [previous] ∧ previous.token ≠ none ∧
      previous.token ≠ some .newline := by
  have hentry := in_entry_of_newline hstep htoken
  rcases List.eq_nil_or_concat' before with rfl | ⟨first, previous, rfl⟩
  · cases hrun
    cases hentry
  · obtain ⟨middle, -, hlast⟩ := exists_of_run_append hrun
    obtain ⟨next, hprevious, hnext⟩ := run_cons_iff.1 hlast
    cases hnext
    have hopen : last.isOpen = true := by
      cases last with
      | stopped body => cases hentry
      | _ => rfl
    exact ⟨first, previous, rfl, token_of_in_entry (taken_of_open hprevious hopen).2.2 hentry⟩

end Reader

open Lexeme (tokenize endPosition)
open Reader (Blames State)

/-- `StandsOn text line error` says how an error stands on the line that it is reported on: at the
end of the text, at a lexeme of the line, or at the line feed that ends it. -/
inductive StandsOn (text line : Text) : SyntaxError → Prop where
  | atEnd (expected) :
      text.rawLines.getLast? = some line →
      StandsOn text line (.unexpected expected .endOfInput (endPosition text))
  | atLexeme (lexeme start rest error) :
      lexeme ∈ tokenize text → Blames lexeme error → lexeme.token ≠ some .newline →
      line = start ++ lexeme.text ++ rest → lexeme.pos.column = start.length + 1 →
      StandsOn text line error
  | atNewline (expected pos) :
      (∃ c ∈ line, isSpace c = false) → pos.column = line.length + 1 →
      StandsOn text line (.unexpected expected .endOfLine pos)

/-- An error about a lexeme that is no line feed stands on the line of that lexeme. -/
theorem stands_on_of_blames {text : Text} {error : SyntaxError} {lexeme : Lexeme}
    (hlexeme : lexeme ∈ tokenize text) (hblames : Blames lexeme error)
    (htoken : lexeme.token ≠ some .newline) :
    ∃ line, text.rawLines[error.pos.line - 1]? = some line ∧ StandsOn text line error := by
  obtain ⟨start, rest, hcolumn, hline⟩ := Lexeme.line_of_mem hlexeme htoken
  rw [hblames.pos_eq] at hline
  exact ⟨_, hline, .atLexeme lexeme start rest error hlexeme hblames htoken rfl hcolumn⟩

/-- A line feed that is refused ends a line on which there is something to be seen. -/
theorem stands_on_of_newline {text : Text} {before after : List Lexeme} {lexeme : Lexeme}
    {last : State} {error : SyntaxError} (h : tokenize text = before ++ lexeme :: after)
    (hrun : State.initial.run before = .ok last) (hstep : last.step lexeme = .error error)
    (htoken : lexeme.token = some .newline) (expected : Expectation) :
    ∃ line, text.rawLines[lexeme.pos.line - 1]? = some line ∧
      StandsOn text line (.unexpected expected .endOfLine lexeme.pos) := by
  obtain ⟨first, previous, rfl, hnone, hfeed⟩ := Reader.previous_of_newline hrun hstep htoken
  rw [List.append_assoc, List.singleton_append] at h
  have hmem : previous ∈ tokenize text := by simp [h]
  obtain ⟨start, gap, hcolumn, hline⟩ := Lexeme.line_of_newline h hfeed htoken
  refine ⟨_, hline, .atNewline expected lexeme.pos ?_ hcolumn⟩
  obtain ⟨_, _, -, -, hshape⟩ := Lexeme.exists_of_mem_scans (Lexeme.scans_scan _ text) hmem
  by_contra hblank
  have hspaces : ∀ c ∈ previous.text, isSpace c = true := by
    intro c hc
    by_contra hseen
    exact hblank ⟨c, by simp [hc], by simpa using hseen⟩
  exact (Lexeme.token_of_space hshape hspaces).elim hnone hfeed

/-- A rejected text has a line where its error stands. -/
theorem stands_on_of_read_error {text : Text} {error : SyntaxError}
    (h : readDocument text = .error error) :
    ∃ line, text.rawLines[error.pos.line - 1]? = some line ∧ StandsOn text line error := by
  unfold readDocument at h
  cases hrun : State.initial.run (tokenize text) with
  | ok state =>
      rw [hrun] at h
      obtain ⟨expected, rfl⟩ := Reader.finish_error h
      obtain ⟨line, hline, hlast⟩ := Lexeme.line_of_end text
      exact ⟨line, hline, .atEnd expected hlast⟩
  | error found =>
      rw [hrun] at h
      cases h
      obtain ⟨before, lexeme, after, last, hsplit, htaken, hstep⟩ := Reader.step_of_run_error hrun
      cases Reader.rejects_of_step hstep with
      | duplicateKey key pos hkey =>
          obtain ⟨name, hname, hspelled, rfl⟩ := Reader.key_of_run htaken hkey
          refine stands_on_of_blames (by simp [hsplit, hname]) (.duplicateKey key hspelled) ?_
          intro htoken
          simp [Grammar.keyOf?, htoken] at hspelled
      | unexpected expected =>
          by_cases htoken : lexeme.token = some .newline
          · have hfound : Found.ofLexeme lexeme = .endOfLine := by simp [Found.ofLexeme, htoken]
            rw [hfound]
            exact stands_on_of_newline hsplit htaken hstep htoken expected
          · exact stands_on_of_blames (by simp [hsplit]) (.unexpected expected) htoken

end Highlighter
