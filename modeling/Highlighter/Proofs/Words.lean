import Highlighter.Line.Patterns
import Highlighter.Proofs.Scan

/-!
# Words and numbers between other characters

The lexer knows the words and numbers of ASCII, while the patterns for whole words and numbers know
those of every script. Between characters that belong to neither, `isApart`, they find the same: a
number lexeme is matched whole (`number_word_eq`), and no match that starts before such a character
reaches over it (`not_straddles`).
-/

namespace Highlighter

open Lexeme

/-- A character that is part of no word and no number: a blank, a quote, a slash, or one that is a
token by itself. -/
def isApart (c : Char) : Bool :=
  isBlank c || isQuote c || c == '/' || (charToken? c).isSome

/-- Characters apart from words and numbers are not part of any, whatever the script. -/
theorem apart_cases {c : Char} (h : isApart c = true) :
    Text.isIdentChar c = false ∧ isWordChar c = false ∧
      Number.isPart isDecimalDigit c = false := by
  simp only [isApart, Bool.or_eq_true, beq_iff_eq] at h
  obtain ((hblank | hquote) | rfl) | htoken := h
  · obtain ((rfl | rfl) | rfl) | rfl : ((c = ' ' ∨ c = '\t') ∨ c = '\r') ∨ c = '\x0c' := by
      simpa [isBlank] using hblank
    all_goals decide
  · obtain rfl | rfl : c = '"' ∨ c = '\'' := by simpa [isQuote] using hquote
    all_goals decide
  · decide
  · unfold charToken? at htoken
    split at htoken
    case h_8 => cases htoken
    all_goals decide

/-- Identifier characters are not apart from words. -/
theorem not_apart_of_ident {c : Char} (h : Text.isIdentChar c = true) : isApart c = false := by
  cases hc : isApart c with
  | false => rfl
  | true => simp [(apart_cases hc).1] at h

/-- Parts of numbers are not apart from them. -/
theorem not_apart_of_part {c : Char} (h : Number.isPart isDecimalDigit c = true) :
    isApart c = false := by
  cases hc : isApart c with
  | false => rfl
  | true => simp [(apart_cases hc).2.2] at h

/-- Identifier characters lie between the digit zero and the letter z. -/
theorem code_of_ident {c : Char} (h : Text.isIdentChar c = true) :
    48 ≤ c.toNat ∧ c.toNat ≤ 122 := by
  unfold Text.isIdentChar Char.isAlphanum Char.isAlpha Char.isUpper Char.isLower Char.isDigit at h
  simp only [Bool.or_eq_true, Bool.and_eq_true, decide_eq_true_eq, beq_iff_eq,
    UInt32.le_iff_toNat_le, ge_iff_le] at h
  obtain ((h | h) | h) | rfl := h
  · exact ⟨le_trans (by decide) h.1, le_trans h.2 (by decide)⟩
  · exact ⟨le_trans (by decide) h.1, le_trans h.2 (by decide)⟩
  · exact ⟨le_trans (by decide) h.1, le_trans h.2 (by decide)⟩
  · decide

/-- Identifier characters are ASCII characters. -/
theorem ascii_of_ident {c : Char} (h : Text.isIdentChar c = true) : c.toNat < 128 := by
  have hcode := (code_of_ident h).2
  omega

/-- Identifier characters are no white space. -/
theorem not_space_of_ident {c : Char} (h : Text.isIdentChar c = true) : isSpace c = false := by
  have hcode := code_of_ident h
  simp only [isSpace, inRanges, spaceRanges, List.any_cons, List.any_nil, Bool.or_eq_false_iff,
    Bool.and_eq_false_iff, decide_eq_false_iff_not, and_true]
  omega

/-- Identifier characters are word characters. -/
theorem word_char_of_ident {c : Char} (h : Text.isIdentChar c = true) : isWordChar c = true := by
  rw [isWordChar, if_pos (ascii_of_ident h)]
  exact h

/-- Digits are identifier characters. -/
theorem ident_of_digit {c : Char} (h : c.isDigit = true) : Text.isIdentChar c = true := by
  simp [Text.isIdentChar, Char.isAlphanum, h]

/-- On the characters of a number in a document the two notions of a digit agree. -/
theorem decimal_iff_digit {c : Char} (h : Number.isPart Char.isDigit c = true) :
    isDecimalDigit c = c.isDigit := by
  have hascii : c.toNat < 128 := by
    simp only [Number.isPart, Bool.or_eq_true, beq_iff_eq] at h
    obtain ((((h | rfl) | rfl) | rfl) | rfl) | rfl := h
    · exact ascii_of_ident (ident_of_digit h)
    all_goals decide
  rw [isDecimalDigit, if_pos hascii]

/-- A match that is made of no characters apart does not reach over one. -/
theorem not_straddles {pattern : Pattern} {before : Text} (rest : Text)
    (hbefore : ∀ c ∈ before.getLast?, isApart c = true)
    (hpattern : ∀ previous text count, pattern previous text = some count →
      ∀ c ∈ text.take count, isApart c = false) :
    ¬ Text.Straddles pattern none before rest := by
  rintro ⟨outer, inner, count, rfl, hinner, hmatch, hlong⟩
  have hapart : isApart (inner.getLast hinner) = true := by
    refine hbefore _ ?_
    rw [List.getLast?_append_of_ne_nil _ hinner, List.getLast?_eq_some_getLast hinner]
    rfl
  have hmem : inner.getLast hinner ∈ (inner ++ rest).take count := by
    rw [List.take_append, List.take_of_length_le hlong.le]
    exact List.mem_append_left _ (List.getLast_mem hinner)
  simp [hpattern _ _ _ hmatch _ hmem] at hapart

/-- A token that is no word and no comment ends with a character apart. -/
theorem apart_of_getLast {token : Token} {word rest : Text} (h : Munched (some token) word rest)
    (hword : token.isWord = false) (hcomment : token ≠ .comment) :
    ∀ c ∈ word.getLast?, isApart c = true := by
  cases h with
  | char c _ _ htoken =>
      rintro d ⟨⟩
      simp [isApart, htoken]
  | word c tail _ _ htoken hc htail hrest =>
      have hspelled := (word_token_is_word (c :: tail)).1
      simp [htoken, hword] at hspelled
  | string quote body _ hquote hliteral =>
      intro d hd
      rw [List.getLast?_cons, hliteral.getLast?] at hd
      obtain rfl : quote = d := by simpa using hd
      simp [isApart, hquote]
  | number | negative => cases hword
  | comment => exact absurd rfl hcomment

/-- A token that is no word starts with a character apart. -/
theorem apart_of_head {token : Token} {word rest : Text} (h : Munched (some token) word rest)
    (hword : token.isWord = false) : ∀ c ∈ word.head?, isApart c = true := by
  cases h with
  | char c _ _ htoken =>
      rintro d ⟨⟩
      simp [isApart, htoken]
  | word c tail _ _ htoken hc htail hrest =>
      have hspelled := (word_token_is_word (c :: tail)).1
      simp [htoken, hword] at hspelled
  | string quote body _ hquote hliteral =>
      rintro d ⟨⟩
      simp [isApart, hquote]
  | number | negative => cases hword
  | comment tail _ hhead hfeed hrest =>
      rintro d ⟨⟩
      rfl

/-- A literal is matched by itself. -/
theorem take_of_isPrefixOf {literal text : Text} (h : literal.isPrefixOf text = true) :
    text.take literal.length = literal := by
  have hstart : literal <+: text := by simpa using h
  exact (List.prefix_iff_eq_take.1 hstart).symm

/-- A whole word is matched by itself. -/
theorem take_of_whole_word {word text : Text} {previous : Option Char} {count : Nat}
    (h : Text.wholeWord word previous text = some count) : text.take count = word := by
  unfold Text.wholeWord at h
  split at h
  · next hmatch =>
      cases h
      simp only [Bool.and_eq_true] at hmatch
      exact take_of_isPrefixOf hmatch.1.1
  · cases h

/-- A match is no longer than the number that stands there. -/
theorem unsigned_number_le {previous : Option Char} {text : Text} {count : Nat}
    (h : unsignedNumber previous text = some count) :
    count ≤ Number.length isDecimalDigit text := by
  simp only [unsignedNumber] at h
  split at h
  · next hstart =>
      have hwhole : Number.digitCount isDecimalDigit text ≠ 0 := by simp_all
      have hcount := List.mem_of_find?_eq_some h
      simp only [List.mem_cons, List.not_mem_nil, or_false] at hcount
      simp only [Number.length, if_neg hwhole]
      omega
  · cases h

/-- A matched number is made of parts of numbers. -/
theorem part_of_number_word {previous : Option Char} {text : Text} {count : Nat}
    (h : numberWord previous text = some count) :
    ∀ c ∈ text.take count, Number.isPart isDecimalDigit c = true := by
  have hunsigned : ∀ {previous text count}, unsignedNumber previous text = some count →
      ∀ c ∈ text.take count, Number.isPart isDecimalDigit c = true := by
    intro previous text count h c hc
    exact Number.number_part_of_mem
      ((List.take_prefix_take_left (unsigned_number_le h)).subset hc)
  unfold numberWord at h
  split at h
  · next digits =>
      obtain ⟨length, hdigits, rfl⟩ := Option.map_eq_some_iff.1 h
      exact List.forall_mem_cons.2 ⟨rfl, hunsigned hdigits⟩
  · exact hunsigned h

/-- Characters apart are no word characters. -/
theorem not_word_of_apart {neighbour : Option Char} (h : ∀ c ∈ neighbour, isApart c = true) :
    neighbour.any isWordChar = false := by
  cases neighbour with
  | none => rfl
  | some c => exact (apart_cases (h c rfl)).2.1

/-- Characters apart are no identifier characters. -/
theorem not_ident_of_apart {neighbour : Option Char} (h : ∀ c ∈ neighbour, isApart c = true) :
    neighbour.any Text.isIdentChar = false := by
  cases neighbour with
  | none => rfl
  | some c => exact (apart_cases (h c rfl)).1

/-- With either notion of a digit, a number in a document ends before a character apart. -/
theorem decimal_length_eq {digits after : Text}
    (hlength : Number.length Char.isDigit (digits ++ after) = digits.length)
    (hafter : ∀ c ∈ after.head?, isApart c = true) :
    Number.length isDecimalDigit (digits ++ after) = digits.length := by
  have hend : ∀ c ∈ after.head?, Number.isPart isDecimalDigit c = false :=
    fun c hc => (apart_cases (hafter c hc)).2.2
  have hend' : ∀ c ∈ after.head?, Number.isPart Char.isDigit c = false := by
    intro c hc
    by_contra hpart
    have hsame := decimal_iff_digit (by simpa using hpart)
    have hapart := hend c hc
    simp only [Number.isPart, hsame] at hapart hpart
    exact hpart hapart
  calc Number.length isDecimalDigit (digits ++ after)
      = Number.length isDecimalDigit digits := Number.number_length_append hend digits
    _ = Number.length Char.isDigit digits := Number.number_length_congr fun c hc =>
        decimal_iff_digit (Number.part_of_mem_digits hlength hc)
    _ = Number.length Char.isDigit (digits ++ after) :=
        (Number.number_length_append hend' digits).symm
    _ = digits.length := hlength

/-- A number between characters apart is matched whole. -/
theorem unsigned_number_eq {previous : Option Char} {digits after : Text} (hdigits : digits ≠ [])
    (hlength : Number.length Char.isDigit (digits ++ after) = digits.length)
    (hprevious : previous.any isWordChar = false)
    (hafter : ∀ c ∈ after.head?, isApart c = true) :
    unsignedNumber previous (digits ++ after) = some digits.length := by
  have hpos : digits.length ≠ 0 := by simpa using hdigits
  have hdecimal := decimal_length_eq hlength hafter
  have hwhole : Number.digitCount isDecimalDigit (digits ++ after) ≠ 0 := by
    intro hzero
    simp only [Number.length, hzero, if_true] at hdecimal
    exact hpos hdecimal.symm
  -- The number starts and ends with a digit, which is a word character.
  have hfirst : (digits ++ after).head?.any isWordChar = true := by
    obtain ⟨c, cs, hc, hdigit⟩ := Number.number_start (hlength ▸ hpos)
    simpa [hc] using word_char_of_ident (ident_of_digit hdigit)
  have hlast : digits.getLast?.any isWordChar = true := by
    have hend : Number.EndsWithDigit Char.isDigit
        ((digits ++ after).take (Number.length Char.isDigit (digits ++ after))) :=
      Number.number_end _
    rw [hlength, List.take_left] at hend
    have hdigit := hend _ (List.getLast?_eq_some_getLast hdigits)
    rw [List.getLast?_eq_some_getLast hdigits]
    exact word_char_of_ident (ident_of_digit hdigit)
  have hstart : isWordBoundary previous (digits ++ after).head? = true := by
    rw [isWordBoundary, hprevious, hfirst]
    rfl
  simp only [Number.length, if_neg hwhole] at hdecimal
  simp only [unsignedNumber]
  rw [if_pos (by simp only [hstart, Bool.and_true, decide_eq_true_eq]; exact hwhole), hdecimal,
    List.find?_cons_of_pos]
  rw [List.take_left, List.drop_left, isWordBoundary, hlast, not_word_of_apart hafter]
  rfl

/-- A number lexeme between characters apart is matched whole, with its sign. -/
theorem number_word_eq {previous : Option Char} {word after : Text}
    (h : Munched (some .number) word after) (hprevious : ∀ c ∈ previous, isApart c = true)
    (hafter : ∀ c ∈ after.head?, isApart c = true) :
    numberWord previous (word ++ after) = some word.length := by
  cases h with
  | char c _ _ htoken => cases (char_token_ne htoken).1
  | word c tail _ _ htoken hc htail hrest => exact absurd htoken (word_token_is_word _).2
  | number _ _ hdigits hlength =>
      have hmatch := unsigned_number_eq hdigits hlength (not_word_of_apart hprevious) hafter
      have hpos : word.length ≠ 0 := by simpa using hdigits
      obtain ⟨c, cs, hc, hdigit⟩ := Number.number_start (hlength ▸ hpos)
      rw [hc] at hmatch ⊢
      unfold numberWord
      split
      · next hminus =>
          obtain ⟨rfl, -⟩ := List.cons.inj hminus
          cases hdigit
      · exact hmatch
  | negative digits _ hdigits hlength =>
      have hmatch : unsignedNumber (some '-') (digits ++ after) = some digits.length :=
        unsigned_number_eq hdigits hlength (by decide) hafter
      simp [numberWord, hmatch]

/-- Different characters are different tokens. -/
theorem char_token_injective {c d : Char} {token : Token} (hc : charToken? c = some token)
    (hd : charToken? d = some token) : c = d := by
  unfold charToken? at hc hd
  split at hc <;> cases hc <;> split at hd <;> first | rfl | cases hd

/-- A character that is a token is not blank, not part of a word or a number, and one byte long. -/
theorem char_token_plain {c : Char} {token : Token} (h : charToken? c = some token) :
    isBlank c = false ∧ Text.isIdentChar c = false ∧ Number.isPart Char.isDigit c = false ∧
      c.utf8Size = 1 := by
  unfold charToken? at h
  split at h
  case h_8 => cases h
  all_goals decide

/-- A token that is a character is spelled by it. -/
theorem text_of_char_token {c : Char} {token : Token} {word rest : Text}
    (hc : charToken? c = some token) (h : Munched (some token) word rest) : word = [c] := by
  obtain ⟨hword, hstring, hcomment⟩ := char_token_ne hc
  cases h with
  | char d _ _ hd => rw [char_token_injective hc hd]
  | word d tail _ _ htoken hd htail hrest =>
      have hspelled := (word_token_is_word (d :: tail)).1
      simp [htoken, hword] at hspelled
  | string => exact absurd rfl hstring
  | number | negative => cases hword
  | comment => exact absurd rfl hcomment

/-- The booleans and the null are spelled in one way. -/
theorem text_of_word_token {word : Text} {token : Token} (h : wordToken word = token) :
    (token = .bool true → word = "true".toList) ∧ (token = .bool false → word = "false".toList) ∧
      (token = .null → word = "null".toList) := by
  unfold wordToken at h
  split_ifs at h <;> subst h <;> simp_all

/-- A lexeme of white space is a line feed or has no token. -/
theorem Lexeme.token_of_space {token : Option Token} {word rest : Text}
    (h : Munched token word rest) (hspace : ∀ c ∈ word, isSpace c = true) :
    token = none ∨ token = some .newline := by
  obtain ⟨c, tail, rfl⟩ := List.exists_cons_of_ne_nil h.ne_nil
  have hc := hspace c List.mem_cons_self
  cases token with
  | none => exact .inl rfl
  | some token =>
      obtain rfl | rfl | htoken | hident | hpart := char_of_munched h List.mem_cons_self
      · obtain ⟨quote, body, hword, hquote, -⟩ := literal_of_munched h
        cases hword
        obtain rfl | rfl : c = '"' ∨ c = '\'' := by simpa [isQuote] using hquote
        all_goals cases hc
      · obtain ⟨tail, hword, -⟩ := slashes_of_munched h
        cases hword
        cases hc
      · unfold charToken? at htoken
        split at htoken
        case h_1 => exact .inr htoken.symm
        case h_8 => cases htoken
        all_goals cases hc
      · simp [not_space_of_ident hident] at hc
      · simp only [Number.isPart, Bool.or_eq_true, beq_iff_eq] at hpart
        obtain ((((hdigit | rfl) | rfl) | rfl) | rfl) | rfl := hpart
        · simp [not_space_of_ident (ident_of_digit hdigit)] at hc
        all_goals cases hc

end Highlighter
