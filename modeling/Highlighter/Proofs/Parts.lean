import Highlighter.ErrorRecord.Basic
import Highlighter.Line.TreePaint
import Highlighter.Proofs.Matches
import Highlighter.Proofs.Words

/-!
# Parts of a line

Painting measures a line in bytes, and a byte offset is of use only between two characters.
`IsPart line start stop` says that a part of the line lies between two offsets, so that both are
such places (`IsPart.starts`, `IsPart.stops`) and lie on the line (`IsPart.stop_le`). Whatever a
line is searched for is found as a part of it: a pattern (`is_part_of_match`), a literal
(`is_part_of_find`) and the key at its start (`is_part_of_line_key`). Its comment starts between two
characters too (`boundary_of_comment_start`).
-/

namespace Highlighter

namespace Text

/-- `IsPart line start stop` says that a part of a line lies between two byte offsets. -/
def IsPart (line : Text) (start stop : Nat) : Prop :=
  ∃ before part after, line = before ++ part ++ after ∧ start = before.byteLength ∧
    stop = (before ++ part).byteLength

/-- What is cut at an offset are the parts before and after it. -/
theorem exists_of_split_at {offset : Nat} {text before after : Text}
    (h : splitAt? offset text = some (before, after)) :
    text = before ++ after ∧ offset = before.byteLength := by
  fun_induction splitAt? offset text generalizing before with
  | case1 text =>
      cases h
      exact ⟨rfl, rfl⟩
  | case2 => cases h
  | case3 n c cs hsize ih =>
      obtain ⟨⟨first, second⟩, hsplit, hboth⟩ := Option.map_eq_some_iff.1 h
      cases hboth
      obtain ⟨rfl, hoffset⟩ := ih hsplit
      refine ⟨rfl, ?_⟩
      simp only [byte_length_cons]
      omega
  | case4 => cases h

/-- An offset is between two characters if it is the length of a first part. -/
theorem is_boundary_iff {offset : Nat} {text : Text} :
    isBoundary offset text = true ↔
      ∃ before after, text = before ++ after ∧ offset = before.byteLength := by
  constructor
  · intro h
    obtain ⟨⟨before, after⟩, hsplit⟩ := Option.isSome_iff_exists.1 h
    exact ⟨before, after, exists_of_split_at hsplit⟩
  · rintro ⟨before, after, rfl, rfl⟩
    simp [isBoundary, split_at_byte_length]

namespace IsPart

variable {line : Text} {start stop : Nat}

/-- A part starts between two characters. -/
theorem starts (h : IsPart line start stop) : line.isBoundary start = true := by
  obtain ⟨before, part, after, rfl, rfl, rfl⟩ := h
  exact is_boundary_iff.2 ⟨before, part ++ after, by simp, rfl⟩

/-- A part ends between two characters. -/
theorem stops (h : IsPart line start stop) : line.isBoundary stop = true := by
  obtain ⟨before, part, after, rfl, rfl, rfl⟩ := h
  exact is_boundary_iff.2 ⟨before ++ part, after, rfl, rfl⟩

/-- A part starts no later than it ends. -/
theorem start_le (h : IsPart line start stop) : start ≤ stop := by
  obtain ⟨before, part, after, rfl, rfl, rfl⟩ := h
  simp

/-- A part ends no later than its line. -/
theorem stop_le (h : IsPart line start stop) : stop ≤ line.byteLength := by
  obtain ⟨before, part, after, rfl, rfl, rfl⟩ := h
  simp

end IsPart

/-- From a place between two characters to the end of a line there is a part. -/
theorem is_part_of_boundary {line : Text} {start : Nat} (h : line.isBoundary start = true) :
    IsPart line start line.byteLength := by
  obtain ⟨before, after, rfl, rfl⟩ := is_boundary_iff.1 h
  exact ⟨before, after, [], by simp, rfl, rfl⟩

/-- A part of the end of a line is one of the line. -/
theorem IsPart.after {rest : Text} {start stop : Nat} (before : Text) (h : IsPart rest start stop) :
    IsPart (before ++ rest) (before.byteLength + start) (before.byteLength + stop) := by
  obtain ⟨first, part, after, rfl, rfl, rfl⟩ := h
  exact ⟨before ++ first, part, after, by simp, by simp, by simp⟩

/-- A match of a pattern is a part. -/
theorem is_part_of_match {pattern : Pattern} {line : Text} {range : Range}
    (h : range ∈ line.findAll pattern) : IsPart line range.start range.stop := by
  obtain ⟨first, rest, count, rfl, -, -, rfl⟩ := exists_of_mem_find_all h
  refine ⟨first, rest.take (count + 1), rest.drop (count + 1), ?_, rfl, ?_⟩
  · rw [List.append_assoc, List.take_append_drop]
  · simp

/-- A literal stands where it is found. -/
theorem exists_of_find {line literal : Text} {offset : Nat}
    (h : line.find? literal = some offset) :
    ∃ before after, line = before ++ literal ++ after ∧ offset = before.byteLength := by
  induction line generalizing offset with
  | nil =>
      rw [find?, Option.ite_none_right_eq_some] at h
      obtain ⟨hempty, hoffset⟩ := h
      cases hoffset
      rw [List.isEmpty_iff.1 hempty]
      exact ⟨[], [], rfl, rfl⟩
  | cons c cs ih =>
      rw [find?] at h
      split at h
      · next hstarts =>
          cases h
          obtain ⟨rest, hrest⟩ := List.isPrefixOf_iff_prefix.1 hstarts
          exact ⟨[], rest, hrest.symm, rfl⟩
      · obtain ⟨later, hlater, rfl⟩ := Option.map_eq_some_iff.1 h
        obtain ⟨before, after, rfl, rfl⟩ := ih hlater
        exact ⟨c :: before, after, rfl, rfl⟩

/-- A literal that is found is a part. -/
theorem is_part_of_find {line literal : Text} {offset : Nat}
    (h : line.find? literal = some offset) :
    IsPart line offset (offset + literal.byteLength) := by
  obtain ⟨before, after, hline, rfl⟩ := exists_of_find h
  exact ⟨before, literal, after, hline, rfl, (byte_length_append _ _).symm⟩

/-- ASCII characters have one byte each. -/
theorem byte_length_ascii {text : Text} (h : ∀ c ∈ text, c.toNat < 128) :
    text.byteLength = text.length := by
  induction text with
  | nil => rfl
  | cons c cs ih =>
      obtain ⟨hc, hcs⟩ := List.forall_mem_cons.1 h
      have hsize : c.utf8Size = 1 :=
        Char.utf8Size_eq_one_iff.2 (UInt32.le_iff_toNat_le.2 (Nat.le_of_lt_succ hc))
      rw [byte_length_cons, ih hcs, hsize, List.length_cons, Nat.add_comm]

/-- The text without the white space at its end is a first part of it. -/
theorem trim_end_prefix (text : Text) : ∃ blanks, text = trimEnd text ++ blanks := by
  refine ⟨(text.reverse.takeWhile isSpace).reverse, ?_⟩
  rw [trimEnd, ← List.reverse_append, List.takeWhile_append_dropWhile, List.reverse_reverse]

end Text

open Text

/-- The characters of an indent have one byte each. -/
theorem ascii_of_indent {c : Char} (h : isIndent c = true) : c.toNat < 128 := by
  obtain rfl | rfl : c = ' ' ∨ c = '\t' := by simpa [isIndent] using h
  · decide
  · decide

/-- What a class of ASCII characters takes off the front of a text has one byte for each of its
characters. -/
theorem exists_cut_of_ascii {p : Char → Bool} (hp : ∀ c, p c = true → c.toNat < 128)
    (text : Text) : ∃ first, text = first ++ text.drop (text.takeWhile p).length ∧
      first.byteLength = (text.takeWhile p).length := by
  refine ⟨text.takeWhile p, List.prefix_iff_eq_append.1 (List.takeWhile_prefix p) |>.symm, ?_⟩
  exact byte_length_ascii fun c hc => hp c (List.mem_takeWhile_imp hc)

/-- The key at the start of a line and its equals sign are parts. -/
theorem is_part_of_line_key {line : Text} {key : Range} {equals : Nat}
    (h : lineKey? line = some (key, equals)) :
    IsPart line key.start key.stop ∧ IsPart line equals (equals + 1) := by
  simp only [lineKey?, Option.ite_none_right_eq_some, Bool.and_eq_true, decide_eq_true_eq,
    Option.some.injEq, Prod.mk.injEq, ← List.drop_drop] at h
  obtain ⟨⟨-, hequals⟩, rfl, rfl⟩ := h
  -- The line is cut three times, after its indent, its key and the gap, and each piece is ASCII.
  obtain ⟨indent, hindent, hindentLength⟩ := exists_cut_of_ascii (fun _ => ascii_of_indent) line
  generalize line.drop (line.takeWhile isIndent).length = rest at *
  obtain ⟨word, hword, hwordLength⟩ := exists_cut_of_ascii (fun _ => ascii_of_ident) rest
  generalize rest.drop (rest.takeWhile isIdentChar).length = rest' at *
  obtain ⟨gap, hgap, hgapLength⟩ := exists_cut_of_ascii (fun _ => ascii_of_indent) rest'
  obtain ⟨after, hafter⟩ := List.head?_eq_some_iff.1 hequals
  rw [hafter] at hgap
  subst hgap hword hindent
  rw [← hindentLength, ← hwordLength, ← hgapLength]
  constructor
  · exact ⟨indent, word, gap ++ '=' :: after, by simp, rfl, by simp⟩
  · have hsize : '='.utf8Size = 1 := rfl
    refine ⟨indent ++ word ++ gap, ['='], after, by simp, by simp [Nat.add_assoc], ?_⟩
    simp [Nat.add_assoc, hsize]

/-- A place between two characters of the end of a text is one of the text. -/
theorem exists_passed_append {offset marker : Nat} {rest : Text} (first : Text)
    (h : ∃ passed, marker = offset + first.byteLength + passed ∧ rest.isBoundary passed = true) :
    ∃ passed, marker = offset + passed ∧ (first ++ rest).isBoundary passed = true := by
  obtain ⟨passed, hmarker, hpassed⟩ := h
  refine ⟨first.byteLength + passed, by rw [hmarker, Nat.add_assoc], ?_⟩
  exact ((is_part_of_boundary hpassed).after first).starts

/-- The walk over a line ends at a marker between two characters. -/
theorem exists_passed_of_marker {offset marker : Nat} {quote : Option (Char × Nat)} {text : Text}
    (h : LineScan.ofText offset quote text = .marker marker) :
    ∃ passed, marker = offset + passed ∧ text.isBoundary passed = true := by
  -- The walk goes on by one character, or by two at an escape, and what it has passed grows by as
  -- many bytes.
  fun_induction LineScan.ofText offset quote text with
  | case1 | case2 | case3 => cases h
  | case4 offset mark opened d ds next ih =>
      refine exists_passed_append ['\\', d] ?_
      simpa [next, Nat.add_assoc] using ih h
  | case5 offset c cs next opened hescape ih => exact exists_passed_append [c] (ih h)
  | case6 offset c cs next mark opened hescape hmark ih => exact exists_passed_append [c] (ih h)
  | case7 offset c cs next hquote ih => exact exists_passed_append [c] (ih h)
  | case8 offset c cs hquote hmarker =>
      cases h
      exact ⟨0, rfl, rfl⟩
  | case9 offset c cs next hquote hmarker ih => exact exists_passed_append [c] (ih h)

/-- The comment of a line starts between two characters. -/
theorem boundary_of_comment_start {line : Text} {start : Nat}
    (h : commentStart? line = some start) : line.isBoundary start = true := by
  unfold commentStart? at h
  split at h
  · next hscan =>
      cases h
      obtain ⟨passed, rfl, hpassed⟩ := exists_passed_of_marker hscan
      rwa [Nat.zero_add]
  · next opened hscan =>
      obtain ⟨⟨before, rest⟩, hsplit, hfind⟩ := Option.bind_eq_some_iff.1 h
      obtain ⟨rfl, hopened⟩ := exists_of_split_at hsplit
      obtain ⟨later, hlater, rfl⟩ := Option.map_eq_some_iff.1 hfind
      rw [hopened]
      exact ((is_part_of_find hlater).after before).starts
  · cases h

end Highlighter
