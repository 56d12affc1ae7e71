import Highlighter.ErrorRecord.Basic
import Highlighter.Proofs.ErrorPlaces
import Highlighter.Proofs.Words

/-!
# What the message of an error says

The message of a syntax error names its place and what was found there, and the place and the token
of an error are read out of messages by the phrases that it is written in. A phrase is searched from
left to right, so what stands before it in the message must not hold the word that it starts with.
`lacks` says so of a piece of a message, whatever follows it, and `first_match_pass` lets a search
pass over such a piece. What follows a phrase does not matter: a token may hold any words.

`error_message_locates` is the main statement: the fields of the error of a text and its message
alone give the same place, and the same token unless the token is empty or holds a backquote.
-/

namespace Highlighter

namespace Message

/-- Whether a word may start at the front of a text with more text after it: as far as the text
goes, it spells the word in any case. -/
def mayStart (word text : Text) : Bool :=
  ((text.take word.length).map foldCase).isPrefixOf word

/-- Whether none of some words starts in a text, whatever stands after it. A word starts at a word
boundary only. -/
def lacks (words : List Text) (before : Option Char) : Text → Bool
  | [] => true
  | c :: cs =>
      !(isWordBoundary before (some c) && words.any (mayStart · (c :: cs))) &&
        lacks words (some c) cs

/-- None of some words starts in a text if none does at its front and none in the rest of it. -/
theorem lacks_cons_iff {words : List Text} {before : Option Char} {c : Char} {cs : Text} :
    lacks words before (c :: cs) = true ↔
      (isWordBoundary before (some c) = false ∨
          ∀ word ∈ words, ¬ mayStart word (c :: cs) = true) ∧
        lacks words (some c) cs = true := by
  simp only [lacks, Bool.and_eq_true, Bool.not_eq_true', Bool.and_eq_false_iff,
    List.any_eq_false]

/-- `LooksFor words read` says that a reader succeeds only where one of the words starts. -/
def LooksFor {α : Type} (words : List Text) (read : Option Char → Text → Option α) : Prop :=
  ∀ before text found, read before text = some found →
    isWordBoundary before text.head? = true ∧
      ∃ word ∈ words, ∃ rest, afterWord? word text = some rest

/-- A word that starts at the front of a text may start at the front of any first part. -/
theorem may_start_of_after_word {word part rest after : Text}
    (h : afterWord? word (part ++ rest) = some after) : mayStart word part = true := by
  rw [afterWord?, Option.ite_none_right_eq_some] at h
  obtain ⟨hword, -⟩ := h
  rw [List.take_append, List.map_append] at hword
  rw [mayStart, List.isPrefixOf_iff_prefix]
  exact ⟨_, hword⟩

/-- A search passes over a piece in which none of its words starts. -/
theorem first_match_pass {α : Type} {words : List Text} {read : Option Char → Text → Option α}
    (hread : LooksFor words read) {before : Option Char} {part : Text}
    (hpart : lacks words before part = true) (rest : Text) :
    Text.firstMatch read before (part ++ rest) =
      Text.firstMatch read (part.getLast?.or before) rest := by
  induction part generalizing before with
  | nil => simp
  | cons c cs ih =>
      obtain ⟨hhere, hlater⟩ := lacks_cons_iff.1 hpart
      have hnone : read before (c :: (cs ++ rest)) = none := by
        cases hfound : read before (c :: (cs ++ rest)) with
        | none => rfl
        | some found =>
            obtain ⟨hboundary, word, hword, after, hafter⟩ := hread _ _ _ hfound
            obtain hinside | hother := hhere
            · exact absurd hboundary (by simp [hinside])
            · have hstart : mayStart word (c :: cs) = true := may_start_of_after_word hafter
              exact absurd hstart (hother word hword)
      rw [List.cons_append, Text.firstMatch, hnone, ih hlater]
      cases cs <;> simp [List.getLast?_cons]

/-- A search ends where its reader succeeds. -/
theorem first_match_here {α : Type} {read : Option Char → Text → Option α} {before : Option Char}
    {text : Text} {found : α} (h : read before text = some found) :
    Text.firstMatch read before text = some found := by
  cases text with
  | nil => exact h
  | cons c cs => rw [Text.firstMatch, h]; rfl

/-- Words that start neither in a piece nor in what is joined to it do not start in both. -/
theorem lacks_append {words : List Text} {before : Option Char} {first second : Text}
    (hfirst : lacks words before first = true)
    (hsecond : ∀ before, lacks words before second = true) :
    lacks words before (first ++ second) = true := by
  induction first generalizing before with
  | nil => exact hsecond before
  | cons c cs ih =>
      obtain ⟨hhere, hlater⟩ := lacks_cons_iff.1 hfirst
      rw [List.cons_append, lacks_cons_iff]
      refine ⟨hhere.imp_right fun hother word hword hstart => hother word hword ?_, ih hlater⟩
      -- What spells a word as far as it goes does so when it is cut off earlier.
      rw [mayStart, List.isPrefixOf_iff_prefix] at hstart ⊢
      refine List.IsPrefix.trans ?_ hstart
      rw [← List.cons_append, List.take_append, List.map_append]
      exact List.prefix_append _ _

/-- Words of which none may start with the first character do not start in a piece if they do not
start in the rest of it. -/
theorem lacks_cons {words : List Text} {c : Char} {cs : Text}
    (hhere : words.any (mayStart · (c :: cs)) = false) (hlater : lacks words (some c) cs = true)
    (before : Option Char) : lacks words before (c :: cs) = true := by
  simp [lacks, hhere, hlater]

/-- A search for a token in backquotes looks for "got". -/
theorem backquoted_looks_for : LooksFor ["got".toList] backquotedToken? := by
  intro before text found h
  rw [backquotedToken?, Option.ite_none_right_eq_some] at h
  obtain ⟨hboundary, h⟩ := h
  obtain ⟨after, hafter, -⟩ := Option.bind_eq_some_iff.1 h
  exact ⟨hboundary, _, List.mem_singleton_self _, after, hafter⟩

/-- A search for a token after its kind looks for "Got", which is "got" in another case. -/
theorem typed_looks_for : LooksFor ["got".toList] typedToken? := by
  intro before text found h
  rw [typedToken?, Option.ite_none_right_eq_some, Bool.and_eq_true] at h
  obtain ⟨⟨hboundary, hgot⟩, -⟩ := h
  obtain ⟨rest, rfl⟩ := List.isPrefixOf_iff_prefix.1 hgot
  exact ⟨hboundary, _, List.mem_singleton_self _, rest, rfl⟩

/-- A search for a token in single quotes looks for "unexpected". -/
theorem quoted_looks_for : LooksFor ["unexpected".toList] quotedToken? := by
  intro before text found h
  rw [quotedToken?, Option.ite_none_right_eq_some] at h
  obtain ⟨hboundary, h⟩ := h
  obtain ⟨after, hafter, -⟩ := Option.bind_eq_some_iff.1 h
  exact ⟨hboundary, _, List.mem_singleton_self _, after, hafter⟩

/-- A search for a number looks for one of the words before it. -/
theorem digits_looks_for (words : List Text) : LooksFor words (digitsAfter? words) := by
  intro before text found h
  rw [digitsAfter?, Option.ite_none_right_eq_some] at h
  obtain ⟨hboundary, h⟩ := h
  obtain ⟨rest, hrest, -⟩ := Option.bind_eq_some_iff.1 h
  obtain ⟨word, hword, hfound⟩ := List.exists_of_findSome?_eq_some hrest
  obtain ⟨after, hafter, -⟩ := Option.bind_eq_some_iff.1 hfound
  exact ⟨hboundary, word, hword, after, hafter⟩

/-- A digit is written in one case only. -/
theorem fold_case_digit {c : Char} (h : c.isDigit = true) : foldCase c = c := by
  have hkelvin : c ≠ '\u212a' := by
    rintro rfl
    cases h
  have hlong : c ≠ '\u017f' := by
    rintro rfl
    cases h
  have hlower : ¬ (c.val ≥ 'A'.val ∧ c.val ≤ 'Z'.val) := by
    rintro ⟨hcapital, -⟩
    have hcode : 65 ≤ c.toNat := UInt32.le_iff_toNat_le.1 hcapital
    have hdigit : c.toNat ≤ 57 := (Char.isDigit_iff_toNat.1 h).2
    omega
  unfold foldCase Char.toLower
  rw [if_neg hkelvin, if_neg hlong, dif_neg hlower]

/-- Words that start with another character than a digit do not start in a number. -/
theorem lacks_digits {words : List Text} (hwords : words.all (·.head?.any (!·.isDigit)) = true)
    {digits : Text} (hdigits : ∀ c ∈ digits, c.isDigit = true) (before : Option Char) :
    lacks words before digits = true := by
  induction digits generalizing before with
  | nil => rfl
  | cons c cs ih =>
      obtain ⟨hc, hcs⟩ := List.forall_mem_cons.1 hdigits
      refine lacks_cons (List.any_eq_false.2 fun word hword hstart => ?_) (ih hcs _) before
      have hhead := List.all_eq_true.1 hwords word hword
      cases word with
      | nil => simp at hhead
      | cons d ds =>
          -- The first character of the word would be the digit.
          obtain ⟨rfl, -⟩ : c = d ∧ _ := by
            simpa [mayStart, fold_case_digit hc] using hstart
          simp [hc] at hhead

/-- The characters of a number are digits. -/
theorem digits_of_nat (n : Nat) : ∀ c ∈ Text.ofNat n, c.isDigit = true :=
  fun _ hc => Nat.isDigit_of_mem_toDigits (by decide) (by decide) hc

/-- After a space the digits of a number are read, and nothing else. -/
theorem digits_after_space (n : Nat) (rest : Text) :
    afterSpaces? (' ' :: (Text.ofNat n ++ rest)) = some (Text.ofNat n ++ rest) := by
  obtain ⟨c, cs, hdigits⟩ := List.exists_cons_of_ne_nil (Nat.toDigits_ne_nil (b := 10) (n := n))
  have hspace : isSpace c = false :=
    not_space_of_ident (ident_of_digit (digits_of_nat n c (by simp [Text.ofNat, hdigits])))
  have hfirst : isSpace ' ' = true := by decide
  simp [afterSpaces?, Text.ofNat, hdigits, hfirst, hspace]

/-- The digits of a number end before a comma. -/
theorem take_digits (n : Nat) (rest : Text) :
    (Text.ofNat n ++ ',' :: rest).takeWhile isDecimalDigit = Text.ofNat n := by
  rw [Text.take_while_append _ (by rintro d ⟨⟩; decide), List.takeWhile_eq_self_iff]
  intro c hc
  have hdigit := digits_of_nat n c hc
  rw [isDecimalDigit, if_pos (ascii_of_ident (ident_of_digit hdigit)), hdigit]

/-- A number is read back from its digits. -/
theorem number_after_eq {words : List Text} {message : Text} {n : Nat}
    (h : Text.firstMatch (digitsAfter? words) none message = some (Text.ofNat n)) (hpos : 0 < n)
    (hsize : n < UInt64.size) : numberAfter? words message = some n := by
  have hdigits : (Text.ofNat n).all Char.isDigit = true := List.all_eq_true.2 (digits_of_nat n)
  have hvalue : (Text.ofNat n).foldl (fun value c => 10 * value + (c.toNat - '0'.toNat)) 0 = n :=
    Nat.ofDigitChars_ten_toDigits
  rw [numberAfter?, h]
  show (if (Text.ofNat n).all Char.isDigit && decide (0 < _) && decide (_ < UInt64.size) then some _
    else none) = some n
  rw [hvalue, hdigits, if_pos (by simp [hpos, hsize])]

/-- The number of a message is the one after the first of the words, where a comma ends it. -/
theorem number_of_phrase {words : List Text} {front phrase rest : Text} {n : Nat}
    (hfront : lacks words none front = true)
    (hstart : isWordBoundary front.getLast?
      (phrase ++ (Text.ofNat n ++ ',' :: rest)).head? = true)
    (hphrase : words.findSome? (fun word =>
        afterWord? word (phrase ++ (Text.ofNat n ++ ',' :: rest)) >>= afterSpaces?) =
      some (Text.ofNat n ++ ',' :: rest))
    (hpos : 0 < n) (hsize : n < UInt64.size) :
    numberAfter? words (front ++ (phrase ++ (Text.ofNat n ++ ',' :: rest))) = some n := by
  refine number_after_eq ?_ hpos hsize
  rw [first_match_pass (digits_looks_for _) hfront, Option.or_none]
  refine first_match_here ?_
  rw [digitsAfter?, if_pos hstart, hphrase]
  show (if ((Text.ofNat n ++ ',' :: rest).takeWhile isDecimalDigit).isEmpty then none
    else some ((Text.ofNat n ++ ',' :: rest).takeWhile isDecimalDigit)) = _
  rw [take_digits, if_neg (by simp [Text.ofNat, Nat.toDigits_ne_nil])]

/-- The line of a message is the number after the first "line". -/
theorem line_eq {front rest : Text} {n : Nat} (hfront : lacks ["line".toList] none front = true)
    (hlast : front.getLast? = some ' ') (hpos : 0 < n) (hsize : n < UInt64.size) :
    line? (front ++ ("line ".toList ++ (Text.ofNat n ++ ',' :: rest))) = some n := by
  refine number_of_phrase hfront (by rw [hlast]; rfl) ?_ hpos hsize
  show (afterSpaces? (' ' :: (Text.ofNat n ++ ',' :: rest))).or none = _
  rw [digits_after_space, Option.some_or]

/-- The column of a message is the number after the first "col" or "column". -/
theorem column_eq {front rest : Text} {n : Nat}
    (hfront : lacks ["column".toList, "col".toList] none front = true)
    (hlast : front.getLast? = some ' ') (hpos : 0 < n) (hsize : n < UInt64.size) :
    column? (front ++ ("col ".toList ++ (Text.ofNat n ++ ',' :: rest))) = some n := by
  refine number_of_phrase hfront (by rw [hlast]; rfl) ?_ hpos hsize
  show (afterSpaces? (' ' :: (Text.ofNat n ++ ',' :: rest))).or none = _
  rw [digits_after_space, Option.some_or]

/-- The token of a message is what stands in backquotes after the first "got". -/
theorem token_eq {front token : Text} (hfront : lacks ["got".toList] none front = true)
    (hlast : front.getLast? = some ' ') (hne : token ≠ []) (hmark : '\x60' ∉ token) :
    token? (front ++ ("got \x60".toList ++ (token ++ ['\x60']))) = some token := by
  have hinside : (token ++ ['\x60']).takeWhile (· ≠ '\x60') = token := by
    rw [Text.take_while_append _ (by simp), List.takeWhile_eq_self_iff]
    intro c hc
    have hother : c ≠ '\x60' := fun heq => hmark (heq ▸ hc)
    simpa using hother
  have hbetween : between? '\x60' ('\x60' :: (token ++ ['\x60'])) = some token := by
    simp only [between?, hinside]
    simp [hne]
  have hread : backquotedToken? (some ' ') ("got \x60".toList ++ (token ++ ['\x60'])) =
      some token := hbetween
  rw [token?, first_match_pass backquoted_looks_for hfront, hlast, Option.some_or,
    first_match_here hread]
  rfl

/-- A message that only says that the text or its line ends names no token. -/
theorem token_eq_none {front rest : Text} (hgot : lacks ["got".toList] none front = true)
    (hunexpected : lacks ["unexpected".toList] none front = true)
    (hlast : front.getLast? = some ' ')
    (hrest : rest = "end of input".toList ∨ rest = "end of line".toList) :
    token? (front ++ ("got ".toList ++ rest)) = none := by
  have hnone : Text.firstMatch backquotedToken? (some ' ') ("got ".toList ++ rest) = none ∧
      Text.firstMatch typedToken? (some ' ') ("got ".toList ++ rest) = none ∧
      Text.firstMatch quotedToken? (some ' ') ("got ".toList ++ rest) = none := by
    obtain rfl | rfl := hrest <;> decide +kernel
  rw [token?, first_match_pass backquoted_looks_for hgot, first_match_pass typed_looks_for hgot,
    first_match_pass quoted_looks_for hunexpected, hlast, Option.some_or, hnone.1, hnone.2.1,
    hnone.2.2]
  rfl

/-- A word and a number are passed over in a search for other words. -/
theorem lacks_place {words : List Text} {word : Text}
    (hwords : words.all (·.head?.any (!·.isDigit)) = true)
    (hword : ∀ before, lacks words before word = true)
    (hcomma : ∀ before, lacks words before ", ".toList = true) (n : Nat) (before : Option Char) :
    lacks words before (word ++ Text.ofNat n ++ ", ".toList) = true :=
  lacks_append (lacks_append (hword before) (lacks_digits hwords (digits_of_nat n))) hcomma

end Message

/-- What has a text is shown by it in backquotes. -/
theorem Found.describe_of_some {found : Found} {text : Text} (h : found.text? = some text) :
    found.describe = '\x60' :: (text ++ ['\x60']) := by
  cases found <;> cases h <;> rfl

/-- What has no text is the end of the input or of a line. -/
theorem Found.describe_of_none {found : Found} (h : found.text? = none) :
    found.describe = "end of input".toList ∨ found.describe = "end of line".toList := by
  cases found with
  | endOfInput => exact .inl rfl
  | endOfLine => exact .inr rfl
  | token text | unmatched text => cases h

namespace SyntaxError

open Message

/-- What can go wrong, in the words of a message. -/
def headings : List Text :=
  "unexpected character".toList :: "duplicate key".toList ::
    [.key, .equals, .value, .commaOrNewline, .commaOrBrace, .commaOrBracket, .closeBrace,
      .closeBracket].map Expectation.text

theorem text_mem_headings (expected : Expectation) : expected.text ∈ headings := by
  refine List.mem_cons_of_mem _ (List.mem_cons_of_mem _ (List.mem_map_of_mem ?_))
  cases expected <;> decide

theorem what_mem_headings (error : SyntaxError) : error.what ∈ headings := by
  cases error with
  | unexpected expected found pos =>
      cases found with
      | unmatched text => exact List.mem_cons_self
      | _ => exact text_mem_headings expected
  | duplicateKey key pos => exact List.mem_cons_of_mem _ List.mem_cons_self

variable (error : SyntaxError)

/-- The message up to the line. -/
def lineFront : Text :=
  error.what ++ " at ".toList

/-- The message up to the column. -/
def columnFront : Text :=
  error.lineFront ++ ("line ".toList ++ Text.ofNat error.pos.line ++ ", ".toList)

/-- The message up to what was found. -/
def foundFront : Text :=
  error.columnFront ++ ("col ".toList ++ Text.ofNat error.pos.column ++ ", ".toList)

theorem message_eq_found :
    error.message = error.foundFront ++ ("got ".toList ++ error.found.describe) := by
  simp [message, foundFront, columnFront, lineFront]

theorem message_eq_column : error.message = error.columnFront ++ ("col ".toList ++
    (Text.ofNat error.pos.column ++ ',' :: (" got ".toList ++ error.found.describe))) := by
  simp [message, columnFront, lineFront]

theorem message_eq_line : error.message = error.lineFront ++ ("line ".toList ++
    (Text.ofNat error.pos.line ++ ',' :: (" col ".toList ++ (Text.ofNat error.pos.column ++
      (", got ".toList ++ error.found.describe))))) := by
  simp [message, lineFront]

theorem line_front_getLast : error.lineFront.getLast? = some ' ' := by
  simp [lineFront]

theorem column_front_getLast : error.columnFront.getLast? = some ' ' := by
  rw [columnFront, List.getLast?_append, List.getLast?_append]
  rfl

theorem found_front_getLast : error.foundFront.getLast? = some ' ' := by
  rw [foundFront, List.getLast?_append, List.getLast?_append]
  rfl

/-- The words that are searched for are not in the headings. -/
theorem heading_lacks : ∀ what ∈ headings,
    ∀ words ∈ [["line".toList], ["column".toList, "col".toList], ["got".toList]],
      lacks words none (what ++ " at ".toList) = true := by
  decide +kernel

/-- The word "unexpected" is in no heading that names something expected. -/
theorem text_lacks_unexpected (expected : Expectation) :
    lacks ["unexpected".toList] none (expected.text ++ " at ".toList) = true := by
  cases expected <;> decide +kernel

theorem line_front_lacks : lacks ["line".toList] none error.lineFront = true :=
  heading_lacks _ (what_mem_headings error) _ (by simp)

theorem column_front_lacks : lacks ["column".toList, "col".toList] none error.columnFront = true :=
  lacks_append (heading_lacks _ (what_mem_headings error) _ (by simp))
    (lacks_place rfl (lacks_cons rfl rfl) (lacks_cons rfl rfl) _)

/-- A search that passes over the heading of a message passes over its place, unless it looks for
the words there. -/
theorem found_front_lacks {words : List Text} (hfront : lacks words none error.lineFront = true)
    (hwords : words.all (·.head?.any (!·.isDigit)) = true)
    (hline : ∀ before, lacks words before "line ".toList = true)
    (hcolumn : ∀ before, lacks words before "col ".toList = true)
    (hcomma : ∀ before, lacks words before ", ".toList = true) :
    lacks words none error.foundFront = true :=
  lacks_append (lacks_append hfront (lacks_place hwords hline hcomma _))
    (lacks_place hwords hcolumn hcomma _)

theorem found_front_lacks_got : lacks ["got".toList] none error.foundFront = true :=
  found_front_lacks error (heading_lacks _ (what_mem_headings error) _ (by simp)) rfl
    (lacks_cons rfl rfl) (lacks_cons rfl rfl) (lacks_cons rfl rfl)

/-- The line and the column of an error are read out of its message. -/
theorem place_of_message (hline : 0 < error.pos.line ∧ error.pos.line < UInt64.size)
    (hcolumn : 0 < error.pos.column ∧ error.pos.column < UInt64.size) :
    line? error.message = some error.pos.line ∧ column? error.message = some error.pos.column := by
  constructor
  · rw [message_eq_line]
    exact line_eq error.line_front_lacks error.line_front_getLast hline.1 hline.2
  · rw [message_eq_column]
    exact column_eq error.column_front_lacks error.column_front_getLast hcolumn.1 hcolumn.2

/-- Where something without a text was found, the message says what was expected. -/
theorem what_of_none {error : SyntaxError} (h : error.found.text? = none) :
    ∃ expected : Expectation, error.what = expected.text := by
  cases error with
  | unexpected expected found pos =>
      cases found with
      | endOfInput | endOfLine => exact ⟨expected, rfl⟩
      | token text | unmatched text => cases h
  | duplicateKey key pos => cases h

/-- What was found is read out of the message, if it has no text or one that can stand in
backquotes. -/
theorem token_of_message (h : ∀ token ∈ error.found.text?, token ≠ [] ∧ '\x60' ∉ token) :
    token? error.message = error.found.text? := by
  rw [message_eq_found]
  cases htext : error.found.text? with
  | some text =>
      obtain ⟨hne, hmark⟩ := h text htext
      rw [Found.describe_of_some htext]
      exact token_eq error.found_front_lacks_got error.found_front_getLast hne hmark
  | none =>
      obtain ⟨expected, hwhat⟩ := what_of_none htext
      have hfront : lacks ["unexpected".toList] none error.lineFront = true := by
        rw [lineFront, hwhat]
        exact text_lacks_unexpected expected
      have hunexpected : lacks ["unexpected".toList] none error.foundFront = true :=
        error.found_front_lacks hfront rfl (lacks_cons rfl rfl) (lacks_cons rfl rfl)
          (lacks_cons rfl rfl)
      exact token_eq_none error.found_front_lacks_got hunexpected error.found_front_getLast
        (Found.describe_of_none htext)

end SyntaxError

namespace ErrorRecord

/-- The record at a place with the given message and token. -/
def ofPlace (pos : Position) (message : Text) (token : Option Text) : ErrorRecord where
  line := pos.line
  column := pos.column
  length := (token.map List.length).elim 1 (max · 1)
  message := message
  token := token

/-- The fields of a syntax error give its place. -/
theorem locate_cause (cause : SyntaxError) (hline : 0 < cause.pos.line)
    (hcolumn : 0 < cause.pos.column) :
    locate cause.toParseError = .ofPlace cause.pos cause.message
      (cause.found.text?.filter (!·.isEmpty) <|> Message.token? cause.message) := by
  simp [locate, ofPlace, SyntaxError.toParseError, Option.filter, hline, hcolumn]

/-- A failure with nothing but a message has the place and the token that the message names. -/
theorem locate_message {message : Text} {pos : Position}
    (hline : Message.line? message = some pos.line)
    (hcolumn : Message.column? message = some pos.column) :
    locate { message } = .ofPlace pos message (Message.token? message) := by
  simp [locate, ofPlace, hline, hcolumn]

end ErrorRecord

/-- A text that the reader fails on has a syntax error. -/
theorem exists_of_failed {text : Text} {error : ParseError}
    (h : documentParser text = .failed error) :
    ∃ cause, readDocument text = .error cause ∧ error = cause.toParseError := by
  unfold documentParser at h
  split at h
  · cases h
  · next cause hcause =>
      cases h
      exact ⟨cause, hcause, rfl⟩

/-- The reader fails on a text when evaluation says so. -/
theorem failed_of_error {text : Text} {error : ParseError}
    (h : (documentParser text).error? = some error) : documentParser text = .failed error := by
  unfold documentParser at h ⊢
  cases hread : readDocument text with
  | ok tree => simp [hread, Outcome.error?] at h
  | error cause => simpa [hread, Outcome.error?] using h

open ErrorRecord (locate)

/-- The error of a text has the place of a lexeme or of the end of the text. Its fields give this
place and so does its message alone, and unless its token is empty or holds a backquote, its message
alone gives the same record. Lines and columns are asked to be no larger than a machine word. -/
theorem error_message_locates (text : Text) (error : ParseError)
    (hsize : text.length + 1 < UInt64.size) (h : documentParser text = .failed error) :
    ∃ pos : Position,
      (pos = Lexeme.endPosition text ∨ ∃ lexeme ∈ Lexeme.tokenize text, lexeme.pos = pos) ∧
        error.line = some pos.line ∧ error.column = some pos.column ∧
        (locate error).line = pos.line ∧ (locate error).column = pos.column ∧
        (locate { message := error.message }).line = pos.line ∧
        (locate { message := error.message }).column = pos.column ∧
        ((∀ token ∈ error.token, token ≠ [] ∧ '\x60' ∉ token) →
          (locate error).token = error.token ∧
            locate { message := error.message } = locate error) := by
  obtain ⟨cause, hcause, rfl⟩ := exists_of_failed h
  obtain ⟨hline, hlast, hcolumn, hend⟩ := bounds_of_read_error hcause
  obtain ⟨hlineRead, hcolumnRead⟩ := cause.place_of_message ⟨hline, by omega⟩ ⟨hcolumn, by omega⟩
  have hmessage : locate { message := cause.toParseError.message } = _ :=
    ErrorRecord.locate_message hlineRead hcolumnRead
  rw [ErrorRecord.locate_cause cause hline hcolumn, hmessage]
  refine ⟨cause.pos, place_of_read_error hcause, rfl, rfl, rfl, rfl, rfl, rfl, fun htoken => ?_⟩
  have hread := cause.token_of_message htoken
  have hfield : (cause.found.text?.filter (!·.isEmpty) <|> Message.token? cause.message) =
      cause.found.text? := by
    cases htext : cause.found.text? with
    | none =>
        rw [hread, htext]
        rfl
    | some text => simp [(htoken text htext).1]
  rw [hfield]
  exact ⟨rfl, congrArg (ErrorRecord.ofPlace cause.pos cause.message) hread⟩

/-- A key that is there twice and holds the words of a message. -/
theorem error_message_locates_words :
    let text := "'got \"line 9, col 9' = 1\n 'got \"line 9, col 9' = 2".toList
    let error : ParseError :=
      { message := "duplicate key at line 2, col 2, got \x60got \"line 9, col 9\x60".toList
        line := some 2
        column := some 2
        token := some "got \"line 9, col 9".toList }
    documentParser text = .failed error ∧ text.length + 1 < UInt64.size ∧
      (∀ token ∈ error.token, token ≠ [] ∧ '\x60' ∉ token) ∧
      locate { message := error.message } = locate error := by
  intro text error
  have hfailed : documentParser text = .failed error := failed_of_error (by decide +kernel)
  have hsize : text.length + 1 < UInt64.size := by decide +kernel
  have htoken : ∀ token ∈ error.token, token ≠ [] ∧ '\x60' ∉ token := by decide +kernel
  obtain ⟨pos, -, -, -, -, -, -, -, hsame⟩ := error_message_locates text error hsize hfailed
  exact ⟨hfailed, hsize, htoken, (hsame htoken).2⟩

end Highlighter
