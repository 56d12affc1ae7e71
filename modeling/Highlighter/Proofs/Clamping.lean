import Highlighter.Proofs.ShownErrors

/-!
# Records at the end of the visible text

A record whose column is past the last visible character of its line underlines that character
(`resolve_past_visible`). A record whose column is that character itself is not treated so: its
token is looked for first, and without one it underlines as many characters as it has
(`resolve_at_last_found`, `resolve_at_last_missing`). `clamped_iff` says for which records this
makes no difference.
-/

namespace Highlighter

open Text

namespace Text

/-- A literal is not found if it does not stand in the text. -/
theorem find_eq_none_iff {text literal : Text} :
    text.find? literal = none ↔ ¬ literal <:+: text := by
  induction text with
  | nil =>
      rw [find?, List.infix_nil, ite_eq_right_iff, List.isEmpty_iff]
      simp
  | cons c cs ih =>
      rw [find?, List.infix_cons_iff, ← List.isPrefixOf_iff_prefix]
      split
      · next hstarts => simp [hstarts]
      · next hlater => simp [hlater, ih]

/-- The part of a text before a byte offset is the only one of its length. -/
theorem append_inj_of_byte_length {before after other rest : Text}
    (h : before ++ after = other ++ rest) (hlength : before.byteLength = other.byteLength) :
    before = other ∧ after = rest := by
  have hsplit := split_at_byte_length before after
  rw [h, hlength, split_at_byte_length] at hsplit
  cases hsplit
  exact ⟨rfl, rfl⟩

end Text

namespace ErrorRecord

variable {record : ErrorRecord} {before blanks : Text} {c : Char}

/-- A record's token is not found if it does not stand on the line. -/
theorem token_offset_eq_none_iff {line : Text} :
    record.tokenOffset? line = none ↔ ∀ token, record.token = some token → ¬ token <:+: line := by
  unfold tokenOffset?
  cases record.token with
  | none => simp
  | some token =>
      have hlater : token <:+: line.drop (record.column - 1) → token <:+: line :=
        fun h => h.trans (List.drop_suffix _ _).isInfix
      simp [find_eq_none_iff]
      grind

/-- A record past the last visible character underlines it. -/
theorem resolve_past_visible (hc : isSpace c = false) (hblanks : ∀ d ∈ blanks, isSpace d = true)
    (hcolumn : before.length < record.column - 1) :
    record.resolve (before ++ c :: blanks) = (before.byteLength, c.utf8Size) := by
  obtain ⟨more, hmore⟩ := Nat.exists_eq_add_of_lt hcolumn
  have hnone : trimEnd blanks = [] := by simpa [trimEnd] using hblanks
  have htake : (before ++ c :: blanks).take (record.column - 1) =
      before ++ c :: blanks.take more := by
    rw [hmore, Nat.add_assoc, List.take_length_add_append, List.take_succ_cons]
  rw [← last_visible_eq before hc hblanks]
  refine if_pos ?_
  rw [trim_end_visible before blanks hc, hnone, charOffset, htake]
  simp

/-- A record at the last visible character is not past the visible text. -/
theorem visible_at_last (hc : isSpace c = false) (blanks : Text)
    (hcolumn : record.column - 1 = before.length) :
    ¬ (trimEnd (before ++ c :: blanks)).byteLength ≤
      (before ++ c :: blanks).charOffset (record.column - 1) := by
  have hpos := c.utf8Size_pos
  rw [trim_end_visible before blanks hc, hcolumn, char_offset_append]
  simp only [byte_length_append, byte_length_cons]
  omega

/-- A record at the last visible character whose token stands on the line underlines the token, and
the first byte of its place if the token is empty. -/
theorem resolve_at_last_found {offset : Nat} {token : Text} (hc : isSpace c = false)
    (hcolumn : record.column - 1 = before.length) (htoken : record.token = some token)
    (hoffset : record.tokenOffset? (before ++ c :: blanks) = some offset) :
    record.resolve (before ++ c :: blanks) = (offset, max token.byteLength 1) := by
  obtain ⟨found, hfound, hpart⟩ := is_part_of_token_offset hoffset
  obtain rfl : token = found := Option.some.inj (htoken.symm.trans hfound)
  have hstop := hpart.stop_le
  have hfits : min token.byteLength (byteLength (before ++ c :: blanks) - offset) =
      token.byteLength := by omega
  simp only [resolve, if_neg (visible_at_last hc blanks hcolumn), hoffset, htoken,
    Option.getD_some, hfits]

/-- A record at the last visible character whose token is missing underlines that character and the
blanks after it, as many characters as it has. -/
theorem resolve_at_last_missing (hc : isSpace c = false)
    (hcolumn : record.column - 1 = before.length)
    (hoffset : record.tokenOffset? (before ++ c :: blanks) = none) :
    record.resolve (before ++ c :: blanks) =
      (before.byteLength, c.utf8Size + byteLength (blanks.take (record.length - 1))) := by
  have hchars : ((before ++ c :: blanks).drop (record.column - 1)).take (max record.length 1) =
      c :: blanks.take (record.length - 1) := by
    rw [hcolumn, List.drop_left, show max record.length 1 = record.length - 1 + 1 by omega,
      List.take_succ_cons]
  have hshort : byteLength (blanks.take (record.length - 1)) ≤ blanks.byteLength := by
    have hall := congrArg byteLength (List.take_append_drop (record.length - 1) blanks)
    rw [byte_length_append] at hall
    omega
  have hpos := c.utf8Size_pos
  have hfits : max (min (c.utf8Size + byteLength (blanks.take (record.length - 1)))
      (byteLength (before ++ c :: blanks) - before.byteLength)) 1 =
        c.utf8Size + byteLength (blanks.take (record.length - 1)) := by
    rw [byte_length_append, byte_length_cons]
    omega
  simp only [resolve, if_neg (visible_at_last hc blanks hcolumn), hoffset, hchars]
  rw [hcolumn, char_offset_append, byte_length_cons, hfits]

/-- A record at the last visible character whose token stands on the line underlines that character
if the token is the character, or if it is empty and the character has one byte. -/
theorem resolve_at_last_found_iff {token : Text} (hc : isSpace c = false)
    (hcolumn : record.column - 1 = before.length) (htoken : record.token = some token)
    (hfound : record.tokenOffset? (before ++ c :: blanks) ≠ none) :
    record.resolve (before ++ c :: blanks) = (before.byteLength, c.utf8Size) ↔
      token = [c] ∨ token = [] ∧ c.utf8Size = 1 := by
  obtain ⟨offset, hoffset⟩ := Option.ne_none_iff_exists'.1 hfound
  rw [resolve_at_last_found hc hcolumn htoken hoffset, Prod.mk.injEq]
  constructor
  · rintro ⟨rfl, hsize⟩
    obtain ⟨found, start, rest, hsome, hsplit, hstart⟩ := exists_of_token_offset hoffset
    obtain rfl : token = found := Option.some.inj (htoken.symm.trans hsome)
    -- The token stands where the character does.
    rw [List.append_assoc] at hsplit
    obtain ⟨-, hrest⟩ := append_inj_of_byte_length hsplit hstart
    cases token with
    | nil => exact .inr ⟨rfl, hsize.symm⟩
    | cons d tail =>
        obtain ⟨rfl, -⟩ := List.cons.inj hrest
        have hpos := c.utf8Size_pos
        rw [byte_length_cons] at hsize
        have htail : tail = [] := by
          by_contra hne
          have hlength := byte_length_pos hne
          omega
        exact .inl (by rw [htail])
  · intro htoken'
    have hstands : ∃ rest, c :: blanks = token ++ rest := by
      obtain rfl | ⟨rfl, -⟩ := htoken'
      · exact ⟨blanks, rfl⟩
      · exact ⟨c :: blanks, rfl⟩
    obtain ⟨rest, hrest⟩ := hstands
    have hhere := token_offset_at rest htoken hcolumn
    rw [← hrest, hoffset] at hhere
    refine ⟨Option.some.inj hhere, ?_⟩
    have hpos := c.utf8Size_pos
    obtain rfl | ⟨rfl, hsize⟩ := htoken'
    · rw [byte_length_cons, byte_length_nil]
      omega
    · rw [byte_length_nil, hsize]
      rfl

/-- A record at the last visible character whose token is missing underlines that character alone if
it has one character or no blank follows. -/
theorem resolve_at_last_missing_iff (hc : isSpace c = false)
    (hcolumn : record.column - 1 = before.length)
    (hoffset : record.tokenOffset? (before ++ c :: blanks) = none) :
    record.resolve (before ++ c :: blanks) = (before.byteLength, c.utf8Size) ↔
      record.length ≤ 1 ∨ blanks = [] := by
  rw [resolve_at_last_missing hc hcolumn hoffset, Prod.mk.injEq, Nat.add_eq_left]
  have hnone : byteLength (blanks.take (record.length - 1)) = 0 ↔
      blanks.take (record.length - 1) = [] := by
    constructor
    · intro hzero
      by_contra hne
      exact absurd hzero (Nat.ne_of_gt (byte_length_pos hne))
    · intro hempty
      rw [hempty, byte_length_nil]
  rw [hnone, List.take_eq_nil_iff, Nat.sub_eq_zero_iff_le]
  simp

end ErrorRecord

/-- A record at or past the last visible character of its line underlines that character unless it
is right at the character and one of these holds: its token stands on the line, and is neither the
character nor empty over a character of one byte; or its token is missing, it has more than one
character, and blanks follow. -/
theorem clamped_iff (record : ErrorRecord) (line : Text)
    (hvisible : ∃ c ∈ line, isSpace c = false) :
    ∃ (before : Text) (c : Char) (blanks : Text),
      line = before ++ c :: blanks ∧ isSpace c = false ∧ (∀ d ∈ blanks, isSpace d = true) ∧
      (before.length ≤ record.column - 1 →
        (record.resolve line = (before.byteLength, c.utf8Size) ↔
          before.length < record.column - 1 ∨
          record.token = some [c] ∨ (record.token = some [] ∧ c.utf8Size = 1) ∨
          ((∀ token, record.token = some token → ¬ token <:+: line) ∧
            (record.length ≤ 1 ∨ blanks = [])))) := by
  obtain ⟨before, c, blanks, rfl, hc, hblanks⟩ := exists_last_visible hvisible
  refine ⟨before, c, blanks, rfl, hc, hblanks, fun hcolumn => ?_⟩
  obtain hpast | hat := Nat.lt_or_eq_of_le hcolumn
  · exact iff_of_true (record.resolve_past_visible hc hblanks hpast) (.inl hpast)
  · rw [or_iff_right (Nat.not_lt.2 (Nat.le_of_eq hat.symm)), ← ErrorRecord.token_offset_eq_none_iff]
    by_cases hoffset : record.tokenOffset? (before ++ c :: blanks) = none
    · -- The character and the empty text stand on the line, so neither is the token.
      have habsent := ErrorRecord.token_offset_eq_none_iff.1 hoffset
      have hchar : record.token ≠ some [c] :=
        fun htoken => habsent [c] htoken ⟨before, blanks, by simp⟩
      have hempty : record.token ≠ some [] := fun htoken => habsent [] htoken List.nil_infix
      rw [record.resolve_at_last_missing_iff hc hat.symm hoffset]
      simp [hchar, hempty, hoffset]
    · obtain ⟨offset, hfound⟩ := Option.ne_none_iff_exists'.1 hoffset
      obtain ⟨token, -, -, htoken, -⟩ := ErrorRecord.exists_of_token_offset hfound
      rw [record.resolve_at_last_found_iff hc hat.symm htoken hoffset, htoken]
      simp [hoffset]

/-- A record right at the last visible character, with blanks after it. -/
theorem clamped_iff_blanks :
    let record : ErrorRecord := ⟨1, 5, 1, "boom".toList, none⟩
    let line : Text := "key =   ".toList
    (∃ c ∈ line, isSpace c = false) ∧ record.resolve line = (4, 1) := by
  intro record line
  have hvisible : ∃ c ∈ line, isSpace c = false := ⟨'=', by decide +kernel, by decide +kernel⟩
  obtain ⟨before, c, blanks, hline, hc, hblanks, hclamped⟩ := clamped_iff record line hvisible
  have hlast : ErrorRecord.lastVisible line = (before.byteLength, c.utf8Size) := by
    rw [hline]
    exact ErrorRecord.last_visible_eq before hc hblanks
  have hplace : (4, 1) = (before.byteLength, c.utf8Size) := hlast
  have hstart : "key ".toList ++ "=   ".toList = before ++ c :: blanks := hline
  obtain ⟨rfl, -⟩ := append_inj_of_byte_length hstart (congrArg Prod.fst hplace)
  refine ⟨hvisible, ?_⟩
  rw [hplace]
  exact (hclamped (Nat.le_refl 4)).2 (.inr (.inr (.inr ⟨nofun, .inl (Nat.le_refl 1)⟩)))

/-- A record right at the last visible character whose token stands at the start of the line: the
token is underlined, and not the character. -/
theorem token_before_last_visible :
    let record : ErrorRecord := ⟨1, 8, 4, "boom".toList, some "oops".toList⟩
    let before : Text := "oops = ".toList
    isSpace '1' = false ∧ record.column - 1 = before.length ∧
      record.resolve (before ++ ['1']) = (0, 4) ∧
      (before.byteLength, '1'.utf8Size) = (7, 1) := by
  decide +kernel

end Highlighter
