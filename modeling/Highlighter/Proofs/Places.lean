import Highlighter.Proofs.Lines
import Mathlib.Data.List.Induction

/-!
# Places and lines

Places count lines and columns, and lines are what stands between line feeds. The lexer goes from
one place to the next, but where it is can be told from the text before it alone: the line by the
number of line feeds, and the column by the characters since the last one (`advance_start`). The
line of a place holds these characters, and then what stands after the place (`line_at`), and the
lines above it with their line feeds are the rest of what stands before it (`take_feeds`). So a
place has a byte offset (`Text.offsetAt`), which is the length of the text before it
(`offset_at_advance`).
-/

namespace Highlighter

namespace Text

/-- The characters after the last line feed. -/
def lastLine (text : Text) : Text :=
  (text.reverse.takeWhile (· ≠ '\n')).reverse

/-- The lines of a text by its line feeds, with the carriage returns at their ends. -/
def rawLines (text : Text) : List Text :=
  (splitFeeds text).1 :: (splitFeeds text).2

/-- The byte offset of a place: the bytes of the lines above it with their line feeds, and those of
the characters before its column. -/
def offsetAt (text : Text) (pos : Position) : Nat :=
  byteLength ((text.rawLines.take (pos.line - 1)).flatMap (· ++ ['\n'])) +
    columnOffset (some pos.column) (text.rawLines[pos.line - 1]?.getD [])

theorem last_line_length_le (text : Text) : text.lastLine.length ≤ text.length := by
  have hlength := (List.takeWhile_sublist (l := text.reverse) (· ≠ '\n')).length_le
  rw [List.length_reverse] at hlength
  rwa [lastLine, List.length_reverse]

/-- A line feed starts a new line. -/
theorem last_line_feed (text : Text) :
    (text ++ ['\n']).count '\n' = text.count '\n' + 1 ∧ lastLine (text ++ ['\n']) = [] := by
  simp [lastLine]

/-- Any other character goes on with the last line. -/
theorem last_line_append (text : Text) {c : Char} (hc : c ≠ '\n') :
    (text ++ [c]).count '\n' = text.count '\n' ∧ lastLine (text ++ [c]) = text.lastLine ++ [c] := by
  simp [lastLine, hc]

end Text

/-- The place after a text is told by the line feeds in it and the characters after the last one. -/
theorem Position.advance_start (text : Text) :
    Position.start.advance text = ⟨text.count '\n' + 1, text.lastLine.length + 1⟩ := by
  induction text using List.reverseRecOn with
  | nil => rfl
  | append_singleton text c ih =>
      rw [advance_append, ih, advance_cons, advance_nil, step]
      by_cases hc : c = '\n'
      · subst hc
        obtain ⟨hcount, hlast⟩ := Text.last_line_feed text
        rw [if_pos rfl, hcount, hlast]
        rfl
      · obtain ⟨hcount, hlast⟩ := Text.last_line_append text hc
        rw [if_neg hc, hcount, hlast, List.length_append]
        rfl

namespace Text

/-- From the line of a place on, the lines have what stands before the place on its line, and then
what stands after the place. -/
theorem drop_feeds (before after : Text) :
    (rawLines (before ++ after)).drop (before.count '\n') =
      (before.lastLine ++ (splitFeeds after).1) :: (splitFeeds after).2 := by
  -- The last character before the place says whether the place is on a new line.
  induction before using List.reverseRecOn generalizing after with
  | nil => rfl
  | append_singleton before c ih =>
      by_cases hc : c = '\n'
      · subst hc
        obtain ⟨hcount, hlast⟩ := last_line_feed before
        rw [hcount, hlast, List.append_assoc, ← List.drop_drop, ih]
        rfl
      · obtain ⟨hcount, hlast⟩ := last_line_append before hc
        rw [hcount, hlast, List.append_assoc, ih]
        simp [splitFeeds, hc]

/-- The line at a place. -/
theorem line_at (before after : Text) :
    (rawLines (before ++ after))[before.count '\n']? =
      some (before.lastLine ++ (splitFeeds after).1) := by
  rw [← Nat.add_zero (before.count '\n'), ← List.getElem?_drop, drop_feeds]
  rfl

/-- The lines above a place with their line feeds, and the characters before the place on its line,
are all that stands before the place. -/
theorem take_feeds (before after : Text) :
    ((rawLines (before ++ after)).take (before.count '\n')).flatMap (· ++ ['\n']) ++
      before.lastLine = before := by
  induction before using List.reverseRecOn generalizing after with
  | nil => rfl
  | append_singleton before c ih =>
      have hbefore := ih (c :: after)
      rw [List.append_assoc, List.singleton_append]
      by_cases hc : c = '\n'
      · subst hc
        obtain ⟨hcount, hlast⟩ := last_line_feed before
        -- The line that ends here is the line of the place before its line feed.
        have hline : (rawLines (before ++ '\n' :: after))[before.count '\n']? =
            some (lastLine before) := (line_at before ('\n' :: after)).trans (by simp [splitFeeds])
        rw [hcount, hlast, List.append_nil, List.take_add_one, hline, List.flatMap_append,
          Option.toList_some, List.flatMap_singleton, ← List.append_assoc, hbefore]
      · obtain ⟨hcount, hlast⟩ := last_line_append before hc
        rw [hcount, hlast, ← List.append_assoc, hbefore]

/-- The offset of the place after a first part is the length of that part. -/
theorem offset_at_advance (before after : Text) :
    offsetAt (before ++ after) (Position.start.advance before) = before.byteLength := by
  have hbytes := congrArg byteLength (take_feeds before after)
  rw [byte_length_append] at hbytes
  rw [Position.advance_start]
  simp only [offsetAt, Nat.add_sub_cancel, line_at, Option.getD_some, columnOffset,
    char_offset_append, hbytes]

/-- What holds no line feed stands on the first line. -/
theorem split_feeds_in_line {word : Text} (h : '\n' ∉ word) (rest : Text) :
    (splitFeeds (word ++ rest)).1 = word ++ (splitFeeds rest).1 := by
  induction word with
  | nil => rfl
  | cons c cs ih =>
      obtain ⟨hc, hcs⟩ := List.ne_and_not_mem_of_not_mem_cons h
      simp [splitFeeds, hc.symm, ih hcs]

/-- A word that holds no line feed stands whole on the line of its place. -/
theorem line_at_word (before : Text) {word : Text} (after : Text) (h : '\n' ∉ word) :
    (rawLines (before ++ word ++ after))[before.count '\n']? =
      some (before.lastLine ++ word ++ (splitFeeds after).1) := by
  rw [List.append_assoc, line_at, split_feeds_in_line h, List.append_assoc]

end Text

end Highlighter
