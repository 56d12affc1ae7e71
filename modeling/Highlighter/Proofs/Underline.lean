import Highlighter.Proofs.Parts

/-!
# What an error record underlines

The token of a record that was made from a failure has characters (`locate_token_ne_nil`): an empty
token counts as missing, and no phrase of a message names one. So the record underlines a part of
its line that has characters too (`is_part_of_resolve`), whatever its column is.
-/

namespace Highlighter

open Text

namespace Message

/-- What is found first was read somewhere. -/
theorem exists_of_first_match {α : Type} {read : Option Char → Text → Option α}
    {before : Option Char} {text : Text} {found : α}
    (h : firstMatch read before text = some found) :
    ∃ before rest, read before rest = some found := by
  induction text generalizing before with
  | nil => exact ⟨before, [], h⟩
  | cons c cs ih =>
      rw [firstMatch, Option.orElse_eq_orElse, Option.orElse_eq_or, Option.or_eq_some_iff] at h
      obtain hfound | ⟨-, hlater⟩ := h
      · exact ⟨before, c :: cs, hfound⟩
      · exact ih hlater

/-- What stands between two marks has characters. -/
theorem between_ne_nil {mark : Char} {text inside : Text} (h : between? mark text = some inside) :
    inside ≠ [] := by
  cases text with
  | nil => cases h
  | cons c cs =>
      simp only [between?, Option.ite_none_right_eq_some, Bool.and_eq_true, Bool.not_eq_true',
        List.isEmpty_eq_false_iff, Option.some.injEq] at h
      obtain ⟨⟨⟨-, hinside⟩, -⟩, rfl⟩ := h
      exact hinside

/-- A token in backquotes has characters. -/
theorem backquoted_token_ne_nil {before : Option Char} {text token : Text}
    (h : backquotedToken? before text = some token) : token ≠ [] := by
  rw [backquotedToken?, Option.ite_none_right_eq_some] at h
  obtain ⟨-, h⟩ := h
  obtain ⟨afterGot, -, h⟩ := Option.bind_eq_some_iff.1 h
  obtain ⟨rest, -, h⟩ := Option.bind_eq_some_iff.1 h
  exact between_ne_nil h

/-- A token after its kind has characters. -/
theorem typed_token_ne_nil {before : Option Char} {text token : Text}
    (h : typedToken? before text = some token) : token ≠ [] := by
  rw [typedToken?, Option.ite_none_right_eq_some] at h
  obtain ⟨-, h⟩ := h
  obtain ⟨named, -, h⟩ := Option.bind_eq_some_iff.1 h
  rw [Option.ite_none_right_eq_some] at h
  obtain ⟨-, h⟩ := h
  obtain ⟨rest, -, h⟩ := Option.bind_eq_some_iff.1 h
  obtain ⟨hempty, htoken⟩ := Option.ite_none_left_eq_some.1 h
  cases htoken
  simpa using hempty

/-- A token in single quotes has characters. -/
theorem quoted_token_ne_nil {before : Option Char} {text token : Text}
    (h : quotedToken? before text = some token) : token ≠ [] := by
  rw [quotedToken?, Option.ite_none_right_eq_some] at h
  obtain ⟨-, h⟩ := h
  obtain ⟨afterWord, -, h⟩ := Option.bind_eq_some_iff.1 h
  obtain ⟨named, -, h⟩ := Option.bind_eq_some_iff.1 h
  obtain ⟨spaced, -, h⟩ := Option.bind_eq_some_iff.1 h
  obtain ⟨rest, -, h⟩ := Option.bind_eq_some_iff.1 h
  exact between_ne_nil h

/-- The token that a message names has characters. -/
theorem token_ne_nil {message token : Text} (h : token? message = some token) : token ≠ [] := by
  simp only [token?, Option.orElse_eq_orElse, Option.orElse_eq_or, Option.or_eq_some_iff] at h
  obtain h | ⟨-, h | ⟨-, h⟩⟩ := h
  · obtain ⟨before, rest, hread⟩ := exists_of_first_match h
    exact backquoted_token_ne_nil hread
  · obtain ⟨before, rest, hread⟩ := exists_of_first_match h
    exact typed_token_ne_nil hread
  · obtain ⟨before, rest, hread⟩ := exists_of_first_match h
    exact quoted_token_ne_nil hread

end Message

namespace ErrorRecord

/-- The token of the record of a failure has characters. -/
theorem locate_token_ne_nil (error : ParseError) : (locate error).token ≠ some [] := by
  intro h
  simp only [locate, Option.orElse_eq_orElse, Option.orElse_eq_or, Option.or_eq_some_iff] at h
  obtain hfield | ⟨-, hmessage⟩ := h
  · obtain ⟨-, hempty⟩ := Option.filter_eq_some_iff.1 hfield
    cases hempty
  · exact Message.token_ne_nil hmessage rfl

/-- The last visible character of a line is a part. -/
theorem is_part_of_last_visible {line : Text} {start len : Nat} (hline : line ≠ [])
    (h : lastVisible line = (start, len)) : IsPart line start (start + len) ∧ 0 < len := by
  obtain ⟨blanks, hblanks⟩ := trim_end_prefix line
  simp only [lastVisible] at h
  split at h
  · next c hlast =>
      cases h
      obtain ⟨first, hfirst⟩ := List.getLast?_eq_some_iff.1 hlast
      rw [hfirst] at hblanks ⊢
      exact ⟨⟨first, [c], blanks, hblanks, by simp, by simp⟩, c.utf8Size_pos⟩
  · cases h
    obtain ⟨c, cs, rfl⟩ := List.exists_cons_of_ne_nil hline
    exact ⟨⟨[], [c], cs, rfl, rfl, by simp⟩, c.utf8Size_pos⟩

/-- The token of a record stands where it is found. -/
theorem exists_of_token_offset {record : ErrorRecord} {line : Text} {offset : Nat}
    (h : record.tokenOffset? line = some offset) :
    ∃ token before after, record.token = some token ∧ line = before ++ token ++ after ∧
      offset = before.byteLength := by
  obtain ⟨token, htoken, hfound⟩ := Option.bind_eq_some_iff.1 h
  refine ⟨token, ?_⟩
  rw [Option.orElse_eq_orElse, Option.orElse_eq_or, Option.or_eq_some_iff] at hfound
  obtain hcolumn | ⟨-, hline⟩ := hfound
  · obtain ⟨later, hlater, rfl⟩ := Option.map_eq_some_iff.1 hcolumn
    obtain ⟨before, after, hrest, rfl⟩ := exists_of_find hlater
    refine ⟨line.take (record.column - 1) ++ before, after, htoken, ?_, ?_⟩
    · rw [List.append_assoc, List.append_assoc, ← List.append_assoc before, ← hrest,
        List.take_append_drop]
    · rw [byte_length_append, charOffset]
  · obtain ⟨before, after, hsplit, hoffset⟩ := exists_of_find hline
    exact ⟨before, after, htoken, hsplit, hoffset⟩

/-- The token of a record is a part where it is found. -/
theorem is_part_of_token_offset {record : ErrorRecord} {line : Text} {offset : Nat}
    (h : record.tokenOffset? line = some offset) :
    ∃ token, record.token = some token ∧ IsPart line offset (offset + token.byteLength) := by
  obtain ⟨token, before, after, htoken, hline, rfl⟩ := exists_of_token_offset h
  exact ⟨token, htoken, before, token, after, hline, rfl, (byte_length_append _ _).symm⟩

/-- Characters from a column on are a part, which has characters unless the line ends before the
column. -/
theorem is_part_of_chars {line : Text} {skipped count : Nat} (hcount : 0 < count)
    (hcolumn : line.charOffset skipped < line.byteLength) :
    IsPart line (line.charOffset skipped)
        (line.charOffset skipped + byteLength ((line.drop skipped).take count)) ∧
      0 < byteLength ((line.drop skipped).take count) := by
  constructor
  · refine ⟨line.take skipped, (line.drop skipped).take count, (line.drop skipped).drop count, ?_,
      rfl, (byte_length_append _ _).symm⟩
    rw [List.append_assoc, List.take_append_drop, List.take_append_drop]
  · refine byte_length_pos fun hnone => ?_
    have hrest : line.drop skipped = [] := by
      simpa [List.take_eq_nil_iff, Nat.ne_of_gt hcount] using hnone
    rw [charOffset, List.take_of_length_le (List.drop_eq_nil_iff.1 hrest)] at hcolumn
    omega

/-- A record underlines a part of its line that has characters. -/
theorem is_part_of_resolve {record : ErrorRecord} {line : Text} {start len : Nat}
    (htoken : record.token ≠ some []) (hline : line ≠ [])
    (h : record.resolve line = (start, len)) : IsPart line start (start + len) ∧ 0 < len := by
  -- A part that has characters keeps its length.
  have hkeep : ∀ {offset size : Nat}, IsPart line offset (offset + size) ∧ 0 < size →
      (offset, max (min size (line.byteLength - offset)) 1) = (start, len) →
      IsPart line start (start + len) ∧ 0 < len := by
    intro offset size hpart heq
    have hstop := hpart.1.stop_le
    have hsize : max (min size (line.byteLength - offset)) 1 = size := by omega
    rw [hsize] at heq
    cases heq
    exact hpart
  simp only [resolve] at h
  split at h
  · exact is_part_of_last_visible hline h
  · next hcolumn =>
      cases hoffset : record.tokenOffset? line with
      | some offset =>
          obtain ⟨token, hsome, hpart⟩ := is_part_of_token_offset hoffset
          have hne : token ≠ [] := by
            rintro rfl
            exact htoken hsome
          simp only [hoffset, hsome] at h
          exact hkeep ⟨hpart, byte_length_pos hne⟩ h
      | none =>
          have hvisible : line.trimEnd.byteLength ≤ line.byteLength := by
            obtain ⟨blanks, hblanks⟩ := trim_end_prefix line
            have hlength := congrArg byteLength hblanks
            rw [byte_length_append] at hlength
            omega
          simp only [hoffset] at h
          exact hkeep (is_part_of_chars (by omega) (by omega)) h

/-- What a record underlines starts between two characters, also if its token is empty. -/
theorem boundary_of_resolve (record : ErrorRecord) {line : Text} (hline : line ≠ []) :
    line.isBoundary (record.resolve line).1 = true := by
  simp only [resolve]
  split
  · exact (is_part_of_last_visible hline (Prod.eta (lastVisible line)).symm).1.starts
  · cases hoffset : record.tokenOffset? line with
    | some offset =>
        obtain ⟨token, -, hpart⟩ := is_part_of_token_offset hoffset
        exact hpart.starts
    | none =>
        exact is_boundary_iff.2 ⟨line.take (record.column - 1), line.drop (record.column - 1),
          (List.take_append_drop _ line).symm, rfl⟩

end ErrorRecord

end Highlighter
