import Highlighter.Lexeme.Number
import Mathlib.Data.List.TakeWhile

/-!
# Numbers at the front of a text

What is counted as a number depends on the digits and on the characters that may join them. It is
part of the text (`number_length_le`), it is not changed by what stands after a character that ends
every number (`number_length_append`), and two notions of a digit that agree on the text count the
same (`number_length_congr`).
-/

namespace Highlighter

/-- The leading characters of a kind end where a character of another kind follows. -/
theorem Text.take_while_append {p : Char → Bool} (text : Text) {rest : Text}
    (hend : ∀ c ∈ rest.head?, p c = false) : (text ++ rest).takeWhile p = text.takeWhile p := by
  have hrest : rest.takeWhile p = [] := by
    cases rest with
    | nil => rfl
    | cons c cs => simp [hend c rfl]
  simp only [List.takeWhile_append, hrest, List.append_nil]
  split
  · next hall => exact ((List.takeWhile_prefix p).eq_of_length hall).symm
  · rfl

namespace Number

section

variable (isDigit : Char → Bool)

/-- Digits are no more than the characters they are among. -/
theorem digit_count_le (text : Text) : digitCount isDigit text ≤ text.length :=
  (List.takeWhile_prefix _).length_le

/-- A fraction is no longer than the text it is read from. -/
theorem fraction_length_le (text : Text) : fractionLength isDigit text ≤ text.length := by
  cases text with
  | nil => exact Nat.le_refl _
  | cons c cs =>
      have := digit_count_le isDigit cs
      simp only [fractionLength, List.length_cons]
      split <;> omega

/-- A signed run of digits is no longer than the text it is read from. -/
theorem signed_length_le (text : Text) : signedLength isDigit text ≤ text.length := by
  cases text with
  | nil => exact Nat.le_refl _
  | cons c cs =>
      have hrest := digit_count_le isDigit cs
      have hall := digit_count_le isDigit (c :: cs)
      simp only [signedLength]
      split
      · simp only [List.length_cons]
        split <;> omega
      · exact hall

/-- An exponent is no longer than the text it is read from. -/
theorem exponent_length_le (text : Text) : exponentLength isDigit text ≤ text.length := by
  cases text with
  | nil => exact Nat.le_refl _
  | cons c cs =>
      have := signed_length_le isDigit cs
      simp only [exponentLength, List.length_cons]
      split <;> omega

/-- A number is no longer than the text it is read from. -/
theorem number_length_le (text : Text) : length isDigit text ≤ text.length := by
  have hwhole := digit_count_le isDigit text
  have hfraction := fraction_length_le isDigit (text.drop (digitCount isDigit text))
  have hexponent := exponent_length_le isDigit (text.drop (digitCount isDigit text +
    fractionLength isDigit (text.drop (digitCount isDigit text))))
  simp only [List.length_drop] at hfraction hexponent
  simp only [length]
  split <;> omega

end

variable {isDigit : Char → Bool}

/-- A text that starts with a digit starts with a number. -/
theorem number_length_pos {c : Char} {cs : Text} (h : isDigit c = true) :
    length isDigit (c :: cs) ≠ 0 := by
  have hwhole : digitCount isDigit (c :: cs) ≠ 0 := by
    simp [digitCount, h]
  simp [length, hwhole]

/-- A character that may be part of a number. -/
def isPart (isDigit : Char → Bool) (c : Char) : Bool :=
  isDigit c || c == '.' || c == 'e' || c == 'E' || c == '+' || c == '-'

section

variable {rest : Text} (hend : ∀ c ∈ rest.head?, isPart isDigit c = false)

include hend

/-- Digits do not reach over the end of a number. -/
theorem digit_count_append (text : Text) :
    digitCount isDigit (text ++ rest) = digitCount isDigit text := by
  have hdigit : ∀ c ∈ rest.head?, isDigit c = false := by
    intro c hc
    have hpart := hend c hc
    simp only [isPart, Bool.or_eq_false_iff] at hpart
    exact hpart.1.1.1.1.1
  rw [digitCount, Text.take_while_append text hdigit, digitCount]

/-- A fraction does not reach over the end of a number. -/
theorem fraction_length_append (text : Text) :
    fractionLength isDigit (text ++ rest) = fractionLength isDigit text := by
  cases text with
  | nil =>
      cases rest with
      | nil => rfl
      | cons c cs =>
          have hc := hend c rfl
          simp only [isPart, Bool.or_eq_false_iff, beq_eq_false_iff_ne] at hc
          simp [fractionLength, hc.1.1.1.1.2]
  | cons c cs => simp [fractionLength, digit_count_append hend]

/-- A signed run of digits does not reach over the end of a number. -/
theorem signed_length_append (text : Text) :
    signedLength isDigit (text ++ rest) = signedLength isDigit text := by
  cases text with
  | nil =>
      cases rest with
      | nil => rfl
      | cons c cs =>
          have hc := hend c rfl
          simp only [isPart, Bool.or_eq_false_iff, beq_eq_false_iff_ne] at hc
          have hdigits : digitCount isDigit (c :: cs) = 0 := digit_count_append hend []
          simp [signedLength, hc.1.2, hc.2, hdigits]
  | cons c cs =>
      have hall : digitCount isDigit (c :: (cs ++ rest)) = digitCount isDigit (c :: cs) :=
        digit_count_append hend (c :: cs)
      simp [signedLength, digit_count_append hend, hall]

/-- An exponent does not reach over the end of a number. -/
theorem exponent_length_append (text : Text) :
    exponentLength isDigit (text ++ rest) = exponentLength isDigit text := by
  cases text with
  | nil =>
      cases rest with
      | nil => rfl
      | cons c cs =>
          have hc := hend c rfl
          simp only [isPart, Bool.or_eq_false_iff, beq_eq_false_iff_ne] at hc
          simp [exponentLength, hc.1.1.1.2, hc.1.1.2]
  | cons c cs => simp [exponentLength, signed_length_append hend]

/-- A number does not reach over a character that ends every number. -/
theorem number_length_append (text : Text) :
    length isDigit (text ++ rest) = length isDigit text := by
  have hwhole := digit_count_le isDigit text
  have hfraction := fraction_length_le isDigit (text.drop (digitCount isDigit text))
  simp only [List.length_drop] at hfraction
  simp only [length, digit_count_append hend]
  rw [List.drop_append_of_le_length hwhole, fraction_length_append hend]
  split
  · rfl
  · rw [List.drop_append_of_le_length (by omega), exponent_length_append hend]

end

/-- The digits at the front are digits. -/
theorem digits_of_mem {text : Text} {c : Char} (h : c ∈ text.take (digitCount isDigit text)) :
    isDigit c = true := by
  rw [digitCount, ← List.prefix_iff_eq_take.1 (List.takeWhile_prefix isDigit)] at h
  exact List.mem_takeWhile_imp h

/-- A fraction is made of parts of numbers. -/
theorem fraction_part_of_mem {text : Text} {c : Char}
    (h : c ∈ text.take (fractionLength isDigit text)) : isPart isDigit c = true := by
  cases text with
  | nil => simp at h
  | cons d ds =>
      simp only [fractionLength] at h
      split at h
      · next hpoint =>
          obtain rfl | h := List.mem_cons.1 h
          · simp_all [isPart]
          · simp [isPart, digits_of_mem h]
      · simp at h

/-- A signed run of digits is made of parts of numbers. -/
theorem signed_part_of_mem {text : Text} {c : Char}
    (h : c ∈ text.take (signedLength isDigit text)) : isPart isDigit c = true := by
  cases text with
  | nil => simp at h
  | cons d ds =>
      simp only [signedLength] at h
      split at h
      · next hsign =>
          split at h
          · obtain rfl | h := List.mem_cons.1 h
            · obtain rfl | rfl : c = '+' ∨ c = '-' := by simpa using hsign
              · simp [isPart]
              · simp [isPart]
            · simp [isPart, digits_of_mem h]
          · simp at h
      · simp [isPart, digits_of_mem h]

/-- An exponent is made of parts of numbers. -/
theorem exponent_part_of_mem {text : Text} {c : Char}
    (h : c ∈ text.take (exponentLength isDigit text)) : isPart isDigit c = true := by
  cases text with
  | nil => simp at h
  | cons d ds =>
      simp only [exponentLength] at h
      split at h
      · next hmark =>
          obtain rfl | h := List.mem_cons.1 h
          · obtain ⟨rfl | rfl, -⟩ : (c = 'e' ∨ c = 'E') ∧ _ := by simpa using hmark
            · simp [isPart]
            · simp [isPart]
          · exact signed_part_of_mem h
      · simp at h

/-- A number is made of parts of numbers. -/
theorem number_part_of_mem {text : Text} {c : Char}
    (h : c ∈ text.take (length isDigit text)) : isPart isDigit c = true := by
  simp only [length] at h
  split at h
  · simp at h
  · rw [List.take_add, List.take_add, List.mem_append, List.mem_append] at h
    obtain (h | h) | h := h
    · simp [isPart, digits_of_mem h]
    · exact fraction_part_of_mem h
    · exact exponent_part_of_mem h

/-- The characters that are counted as a number are parts of numbers. -/
theorem part_of_mem_digits {digits rest : Text} {c : Char}
    (hlength : length isDigit (digits ++ rest) = digits.length) (h : c ∈ digits) :
    isPart isDigit c = true := by
  have hmem : c ∈ (digits ++ rest).take (length isDigit (digits ++ rest)) := by
    rwa [hlength, List.take_left]
  exact number_part_of_mem hmem

/-- `EndsWithDigit isDigit text` says that the last character, if there is one, is a digit. -/
def EndsWithDigit (isDigit : Char → Bool) (text : Text) : Prop :=
  ∀ c ∈ text.getLast?, isDigit c = true

theorem EndsWithDigit.append {first second : Text} (hfirst : EndsWithDigit isDigit first)
    (hsecond : EndsWithDigit isDigit second) : EndsWithDigit isDigit (first ++ second) := by
  intro c hc
  rw [List.getLast?_append, Option.mem_def, Option.or_eq_some_iff] at hc
  obtain hc | ⟨-, hc⟩ := hc
  · exact hsecond c hc
  · exact hfirst c hc

/-- Characters before digits do not change how they end. -/
theorem EndsWithDigit.cons {text : Text} (c : Char) (h : EndsWithDigit isDigit text)
    (htext : text ≠ []) : EndsWithDigit isDigit (c :: text) := by
  obtain ⟨d, ds, rfl⟩ := List.exists_cons_of_ne_nil htext
  simpa [EndsWithDigit] using h

/-- Digits end with a digit. -/
theorem digits_end (text : Text) :
    EndsWithDigit isDigit (text.take (digitCount isDigit text)) :=
  fun _ hc => digits_of_mem (List.mem_of_getLast? hc)

/-- Counted digits are there. -/
theorem take_digits_ne_nil {text : Text} (h : digitCount isDigit text ≠ 0) :
    text.take (digitCount isDigit text) ≠ [] := by
  cases text with
  | nil => exact absurd rfl h
  | cons c cs => simpa using h

/-- A fraction ends with a digit. -/
theorem fraction_end (text : Text) :
    EndsWithDigit isDigit (text.take (fractionLength isDigit text)) := by
  cases text with
  | nil => simp [EndsWithDigit]
  | cons c cs =>
      simp only [fractionLength]
      split
      · next hpoint =>
          rw [Bool.and_eq_true, decide_eq_true_eq, decide_eq_true_eq] at hpoint
          exact (digits_end cs).cons c (take_digits_ne_nil hpoint.2)
      · simp [EndsWithDigit]

/-- A signed run of digits ends with a digit. -/
theorem signed_end (text : Text) :
    EndsWithDigit isDigit (text.take (signedLength isDigit text)) := by
  cases text with
  | nil => simp [EndsWithDigit]
  | cons c cs =>
      simp only [signedLength]
      split
      · split
        · next hdigits => exact (digits_end cs).cons c (take_digits_ne_nil hdigits)
        · simp [EndsWithDigit]
      · exact digits_end (c :: cs)

/-- An exponent ends with a digit. -/
theorem exponent_end (text : Text) :
    EndsWithDigit isDigit (text.take (exponentLength isDigit text)) := by
  cases text with
  | nil => simp [EndsWithDigit]
  | cons c cs =>
      simp only [exponentLength]
      split
      · next hmark =>
          rw [Bool.and_eq_true, decide_eq_true_eq] at hmark
          refine (signed_end cs).cons c ?_
          cases cs with
          | nil => simp [signedLength] at hmark
          | cons d ds => simpa using hmark.2
      · simp [EndsWithDigit]

/-- A number ends with a digit. -/
theorem number_end (text : Text) : EndsWithDigit isDigit (text.take (length isDigit text)) := by
  simp only [length]
  split
  · simp [EndsWithDigit]
  · rw [List.take_add, List.take_add]
    exact ((digits_end text).append (fraction_end _)).append (exponent_end _)

/-- A number starts with a digit. -/
theorem number_start {text : Text} (h : length isDigit text ≠ 0) :
    ∃ c cs, text = c :: cs ∧ isDigit c = true := by
  cases text with
  | nil => simp [length, digitCount] at h
  | cons c cs =>
      refine ⟨c, cs, rfl, ?_⟩
      by_contra hc
      simp [length, digitCount, hc] at h

section

variable {other : Char → Bool}

/-- Notions of a digit that agree on a text count its digits alike. -/
theorem digit_count_congr {text : Text} (h : ∀ c ∈ text, isDigit c = other c) :
    digitCount isDigit text = digitCount other text := by
  induction text with
  | nil => rfl
  | cons c cs ih =>
      obtain ⟨hc, hcs⟩ := List.forall_mem_cons.1 h
      have hcount := ih hcs
      simp only [digitCount, List.takeWhile_cons, hc] at hcount ⊢
      split
      · simp [hcount]
      · rfl

/-- Notions of a digit that agree on a text give it fractions alike. -/
theorem fraction_length_congr {text : Text} (h : ∀ c ∈ text, isDigit c = other c) :
    fractionLength isDigit text = fractionLength other text := by
  cases text with
  | nil => rfl
  | cons c cs => simp [fractionLength, digit_count_congr (List.forall_mem_cons.1 h).2]

/-- Notions of a digit that agree on a text give it exponents alike. -/
theorem exponent_length_congr {text : Text} (h : ∀ c ∈ text, isDigit c = other c) :
    exponentLength isDigit text = exponentLength other text := by
  have hsigned : ∀ {text : Text}, (∀ c ∈ text, isDigit c = other c) →
      signedLength isDigit text = signedLength other text := by
    intro text h
    cases text with
    | nil => rfl
    | cons c cs =>
        simp [signedLength, digit_count_congr (List.forall_mem_cons.1 h).2, digit_count_congr h]
  cases text with
  | nil => rfl
  | cons c cs => simp [exponentLength, hsigned (List.forall_mem_cons.1 h).2]

/-- Notions of a digit that agree on a text give it numbers alike. -/
theorem number_length_congr {text : Text} (h : ∀ c ∈ text, isDigit c = other c) :
    length isDigit text = length other text := by
  have hdrop : ∀ n, ∀ c ∈ text.drop n, isDigit c = other c :=
    fun n c hc => h c (List.mem_of_mem_drop hc)
  simp only [length, digit_count_congr h, fraction_length_congr (hdrop _),
    exponent_length_congr (hdrop _)]

end

end Number

end Highlighter
