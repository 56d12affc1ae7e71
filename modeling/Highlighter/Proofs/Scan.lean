import Highlighter.Lexeme.Scan
import Highlighter.Line.View
import Highlighter.Proofs.Matches
import Highlighter.Proofs.Number

/-!
# How a text is cut into lexemes

`Munched token word rest` says what a lexeme looks like: which characters it has and what stands
after it. `Scans pos text lexemes` says how a text is cut, one blank or one lexeme at a time,
without counting characters; it holds of the result of the scan and of nothing else (`scans_iff`),
so what is true of the lexemes of a text is shown by induction on it. Lexemes stand in reading order
(`scans_sorted`), each whole before the next (`scans_apart`), with nothing but blanks between them
(`scans_cons`, `scans_append`), and every other character belongs to one of them (`scans_cover`).
-/

namespace Highlighter

namespace Position

/-- The order of reading. -/
def Before (first second : Position) : Prop :=
  first.line < second.line ∨ first.line = second.line ∧ first.column < second.column

theorem Before.trans {first second third : Position} (h : first.Before second)
    (hnext : second.Before third) : first.Before third := by
  unfold Before at *
  omega

/-- A character takes the place on. -/
theorem before_step (pos : Position) (c : Char) : pos.Before (pos.step c) := by
  unfold step
  split
  · exact .inl (Nat.lt_succ_self _)
  · exact .inr ⟨rfl, Nat.lt_succ_self _⟩

@[simp] theorem advance_nil (pos : Position) : pos.advance [] = pos := rfl

@[simp] theorem advance_cons (pos : Position) (c : Char) (cs : Text) :
    pos.advance (c :: cs) = (pos.step c).advance cs := rfl

@[simp] theorem advance_append (pos : Position) (first second : Text) :
    pos.advance (first ++ second) = (pos.advance first).advance second := by
  simp [advance]

/-- A text takes the place on. -/
theorem before_advance (pos : Position) {text : Text} (h : text ≠ []) :
    pos.Before (pos.advance text) := by
  induction text generalizing pos with
  | nil => exact absurd rfl h
  | cons c cs ih =>
      cases cs with
      | nil => exact before_step pos c
      | cons d ds => exact (before_step pos c).trans (ih _ (by simp))

/-- A text without line feeds takes the place on by its length. -/
theorem advance_in_line (pos : Position) {text : Text} (h : '\n' ∉ text) :
    pos.advance text = ⟨pos.line, pos.column + text.length⟩ := by
  induction text generalizing pos with
  | nil => rfl
  | cons c cs ih =>
      obtain ⟨hc, hcs⟩ := List.ne_and_not_mem_of_not_mem_cons h
      rw [advance_cons, ih _ hcs, step, if_neg hc.symm]
      simp only [List.length_cons, Position.mk.injEq, true_and]
      omega

end Position

/-- A token that is a word or a number. -/
def Token.isWord : Token → Bool
  | .ident => true
  | .bool _ => true
  | .null => true
  | .number => true
  | _ => false

namespace Lexeme

/-- `Literal quote body` says that `body` is what follows the opening quote of a closed literal: any
characters of a line, where a backslash takes the next one with it, up to the closing quote. -/
inductive Literal (quote : Char) : Text → Prop where
  | close : Literal quote [quote]
  | escape (c body) :
      c ≠ '\n' → Literal quote body → Literal quote ('\\' :: c :: body)
  | other (c body) :
      c ≠ quote → c ≠ '\\' → c ≠ '\n' → Literal quote body → Literal quote (c :: body)

/-- `Munched token word rest` says that a lexeme with the given token and text may stand before the
given rest. -/
inductive Munched : Option Token → Text → Text → Prop where
  | char (c rest token) :
      charToken? c = some token → Munched (some token) [c] rest
  | word (c tail rest token) :
      wordToken (c :: tail) = token → (c.isAlpha || c == '_') = true →
      (∀ d ∈ tail, Text.isIdentChar d = true) → rest.head?.any Text.isIdentChar = false →
      Munched (some token) (c :: tail) rest
  | string (quote body rest) :
      isQuote quote = true → Literal quote body → Munched (some .string) (quote :: body) rest
  | openQuote (quote body rest) :
      isQuote quote = true → quotedLength quote (body ++ rest) = (body.length, false) →
      Munched none (quote :: body) rest
  | number (digits rest) :
      digits ≠ [] → Number.length Char.isDigit (digits ++ rest) = digits.length →
      Munched (some .number) digits rest
  | negative (digits rest) :
      digits ≠ [] → Number.length Char.isDigit (digits ++ rest) = digits.length →
      Munched (some .number) ('-' :: digits) rest
  | comment (tail rest) :
      tail.head? = some '/' → '\n' ∉ tail → (∀ c ∈ rest.head?, c = '\n') →
      Munched (some .comment) ('/' :: tail) rest
  | stray (c rest) :
      isQuote c = false → ¬ (c = '/' ∧ rest.head? = some '/') → Munched none [c] rest

/-- A literal is no longer than the text it is read from. -/
theorem quoted_length_le (quote : Char) (text : Text) :
    (quotedLength quote text).1 ≤ text.length := by
  fun_induction quotedLength quote text <;> simp_all

/-- A closed literal is found. -/
theorem quoted_length_of_literal {quote : Char} {body : Text} (hquote : isQuote quote = true)
    (h : Literal quote body) (rest : Text) :
    quotedLength quote (body ++ rest) = (body.length, true) := by
  have hslash : '\\' ≠ quote := by
    rintro rfl
    cases hquote
  induction h with
  | close => simp [quotedLength.eq_def]
  | escape c body hc hbody ih => simp [quotedLength.eq_def _ ('\\' :: _), hslash, hc, ih]
  | other c body hquote hc hfeed hbody ih =>
      simp [quotedLength.eq_def _ (c :: _), hquote, hc, hfeed, ih]

/-- What is found as closed is a closed literal. -/
theorem literal_of_quoted_length {quote : Char} {text : Text} {n : Nat}
    (h : quotedLength quote text = (n, true)) : Literal quote (text.take n) := by
  fun_induction quotedLength quote text generalizing n with
  | case2 cs =>
      cases h
      exact .close
  | case6 d ds hd count closed hrest hslash _ ih =>
      obtain ⟨rfl, rfl⟩ : count + 2 = n ∧ closed = true := by simpa using h
      exact .escape _ _ hd (ih hrest)
  | case7 c cs hquote hfeed hslash count closed hrest ih =>
      obtain ⟨rfl, rfl⟩ : count + 1 = n ∧ closed = true := by simpa using h
      exact .other _ _ hquote hslash hfeed (ih hrest)
  | _ => simp at h

/-- What stands after the leading identifier characters does not go on with one. -/
theorem head_drop_while (p : Char → Bool) (text : Text) :
    (text.dropWhile p).head?.any p = false := by
  have h := List.head?_dropWhile_not p text
  cases hhead : (text.dropWhile p).head? with
  | none => rfl
  | some c => simpa [hhead] using h

/-- A text can be cut after any number of characters that it has. -/
theorem exists_cut {text : Text} {n : Nat} (h : n ≤ text.length) :
    ∃ first rest, text = first ++ rest ∧ first.length = n :=
  ⟨text.take n, text.drop n, (List.take_append_drop n text).symm, List.length_take_of_le h⟩

/-- The first lexeme of a text has the shape that its token asks for. -/
theorem munched_of_munch {c : Char} {cs : Text} {token : Option Token} {count : Nat}
    (h : munch c cs = (token, count)) :
    ∃ word rest, c :: cs = word ++ rest ∧ word.length = count ∧ Munched token word rest := by
  -- The branches of `munch` in order, each with the shape of its lexeme.
  unfold munch at h
  split at h
  · next token htoken =>
      cases h
      exact ⟨[c], cs, rfl, rfl, .char _ _ _ htoken⟩
  split at h
  · next halpha =>
      cases h
      exact ⟨c :: cs.takeWhile Text.isIdentChar, cs.dropWhile Text.isIdentChar, by simp, rfl,
        .word _ _ _ _ rfl halpha (fun d hd => List.mem_takeWhile_imp hd) (head_drop_while _ _)⟩
  split at h
  · next hquote =>
      have hquote : isQuote c = true := by simpa [isQuote] using hquote
      -- What the quote takes is the same whether it is closed or not.
      obtain ⟨body, rest, rfl, hbody⟩ := exists_cut (quoted_length_le c cs)
      rcases hlength : quotedLength c (body ++ rest) with ⟨n, closed⟩
      rw [hlength] at h hbody
      cases closed with
      | false =>
          cases h
          exact ⟨c :: body, rest, rfl, by simp [hbody], .openQuote _ _ _ hquote (hbody ▸ hlength)⟩
      | true =>
          cases h
          have hliteral := literal_of_quoted_length hlength
          rw [List.take_left' hbody] at hliteral
          exact ⟨c :: body, rest, rfl, by simp [hbody], .string _ _ _ hquote hliteral⟩
  split at h
  · next hdigit =>
      cases h
      have hpos := @Number.number_length_pos Char.isDigit c cs hdigit
      obtain ⟨digits, rest, heq, hdigits⟩ :=
        exists_cut (Number.number_length_le Char.isDigit (c :: cs))
      refine ⟨digits, rest, heq, hdigits, .number _ _ ?_ (heq ▸ hdigits.symm)⟩
      rintro rfl
      exact hpos hdigits.symm
  split at h
  · next hminus =>
      cases h
      obtain ⟨rfl, hpos⟩ : c = '-' ∧ _ := by simpa using hminus
      obtain ⟨digits, rest, rfl, hdigits⟩ := exists_cut (Number.number_length_le Char.isDigit cs)
      refine ⟨'-' :: digits, rest, rfl, by simp [hdigits], .negative _ _ ?_ hdigits.symm⟩
      rintro rfl
      exact hpos hdigits.symm
  split at h
  · next hcomment =>
      cases h
      obtain ⟨rfl, hslash⟩ : c = '/' ∧ cs.head? = some '/' := by simpa using hcomment
      refine ⟨'/' :: cs.takeWhile (· ≠ '\n'), cs.dropWhile (· ≠ '\n'), by simp, by simp,
        .comment _ _ ?_ ?_ ?_⟩
      · simp [List.head?_takeWhile, hslash]
      · intro hfeed
        simpa using List.mem_takeWhile_imp hfeed
      · intro d hd
        have hrest := head_drop_while (· ≠ '\n') cs
        rw [Option.mem_def.1 hd] at hrest
        simpa using hrest
  · next hquote _ _ hcomment =>
      cases h
      exact ⟨[c], cs, rfl, rfl, .stray _ _ (by simpa [isQuote] using hquote)
        (by simpa using hcomment)⟩

/-- The first lexeme of a text has the shape that its token asks for, wherever it is cut off. -/
theorem munched_of_split {c : Char} {cs word rest : Text} {token : Option Token}
    (h : munch c cs = (token, word.length)) (hsplit : c :: cs = word ++ rest) :
    Munched token word rest := by
  obtain ⟨word', rest', hsplit', hlength, hshape⟩ := munched_of_munch h
  obtain ⟨rfl, rfl⟩ := List.append_inj (hsplit'.symm.trans hsplit) hlength
  exact hshape

/-- A lexeme has characters. -/
theorem Munched.ne_nil {token : Option Token} {word rest : Text} (h : Munched token word rest) :
    word ≠ [] := by
  cases h <;> first | assumption | simp

/-- A closed literal ends with its quote. -/
theorem Literal.getLast? {quote : Char} {body : Text} (h : Literal quote body) :
    body.getLast? = some quote := by
  induction h with
  | close => rfl
  | escape c body hc hbody ih => simp [List.getLast?_cons, ih]
  | other c body hquote hslash hfeed hbody ih => simp [List.getLast?_cons, ih]

/-- A single character is no word, no string and no comment. -/
theorem char_token_ne {c : Char} {token : Token} (h : charToken? c = some token) :
    token.isWord = false ∧ token ≠ .string ∧ token ≠ .comment := by
  unfold charToken? at h
  split at h <;> cases h <;> simp [Token.isWord]

/-- A word is no number. -/
theorem word_token_is_word (word : Text) :
    (wordToken word).isWord = true ∧ wordToken word ≠ .number := by
  unfold wordToken
  split_ifs <;> simp [Token.isWord]

/-- A word that is no number has the token that its characters spell. -/
theorem word_of_munched {token : Token} {word rest : Text} (h : Munched (some token) word rest)
    (hword : token.isWord = true) (hnumber : token ≠ .number) :
    wordToken word = token ∧ ∀ c ∈ word, Text.isIdentChar c = true := by
  cases h with
  | char c _ _ htoken => simp [(char_token_ne htoken).1] at hword
  | word c tail _ _ htoken hc htail hrest =>
      refine ⟨htoken, List.forall_mem_cons.2 ⟨?_, htail⟩⟩
      obtain halpha | rfl : c.isAlpha = true ∨ c = '_' := by simpa using hc
      · simp [Text.isIdentChar, Char.isAlphanum, halpha]
      · rfl
  | string | comment => cases hword
  | number | negative => exact absurd rfl hnumber

/-- A string is a closed literal. -/
theorem literal_of_munched {word rest : Text} (h : Munched (some .string) word rest) :
    ∃ quote body, word = quote :: body ∧ isQuote quote = true ∧ Literal quote body := by
  cases h with
  | char c _ _ htoken => exact absurd rfl (char_token_ne htoken).2.1
  | word c tail _ _ htoken hc htail hrest =>
      have hword := (word_token_is_word (c :: tail)).1
      rw [htoken] at hword
      cases hword
  | string quote body _ hquote hliteral => exact ⟨quote, body, rfl, hquote, hliteral⟩

/-- A comment starts with two slashes and takes the rest of its line. -/
theorem slashes_of_munched {word rest : Text} (h : Munched (some .comment) word rest) :
    ∃ tail, word = '/' :: tail ∧ tail.head? = some '/' ∧ '\n' ∉ tail ∧
      ∀ c ∈ rest.head?, c = '\n' := by
  cases h with
  | char c _ _ htoken => exact absurd rfl (char_token_ne htoken).2.2
  | word c tail _ _ htoken hc htail hrest =>
      have hword := (word_token_is_word (c :: tail)).1
      rw [htoken] at hword
      cases hword
  | comment tail _ hhead hfeed hrest => exact ⟨tail, rfl, hhead, hfeed, hrest⟩

/-- The characters of a number are parts of numbers. -/
theorem part_of_munched {word rest : Text} (h : Munched (some .number) word rest) :
    ∀ c ∈ word, Number.isPart Char.isDigit c = true := by
  cases h with
  | char c _ _ htoken => cases (char_token_ne htoken).1
  | word c tail _ _ htoken => exact absurd htoken (word_token_is_word (c :: tail)).2
  | number _ _ _ hlength => exact fun c hc => Number.part_of_mem_digits hlength hc
  | negative digits _ _ hlength =>
      exact List.forall_mem_cons.2 ⟨rfl, fun c hc => Number.part_of_mem_digits hlength hc⟩

/-- The characters of a token that is neither a string nor a comment are a delimiter, a separator or
an equals sign, or parts of words and numbers. -/
theorem char_of_munched {token : Token} {word rest : Text} {c : Char}
    (h : Munched (some token) word rest) (hc : c ∈ word) :
    token = .string ∨ token = .comment ∨ charToken? c = some token ∨
      Text.isIdentChar c = true ∨ Number.isPart Char.isDigit c = true := by
  cases h with
  | char d _ _ htoken =>
      obtain rfl : c = d := by simpa using hc
      exact .inr (.inr (.inl htoken))
  | word d tail _ _ htoken hd htail hrest =>
      have hshape : Munched (some token) (d :: tail) rest := .word _ _ _ _ htoken hd htail hrest
      obtain ⟨hword, hnumber⟩ := word_token_is_word (d :: tail)
      rw [htoken] at hword hnumber
      exact .inr (.inr (.inr (.inl ((word_of_munched hshape hword hnumber).2 c hc))))
  | string => exact .inl rfl
  | number _ _ hdigits hlength =>
      exact .inr (.inr (.inr (.inr (part_of_munched (.number _ _ hdigits hlength) c hc))))
  | negative _ _ hdigits hlength =>
      exact .inr (.inr (.inr (.inr (part_of_munched (.negative _ _ hdigits hlength) c hc))))
  | comment => exact .inr (.inl rfl)

/-- The lexemes that follow one already taken are those of the text after it. -/
theorem scan_skip (pos : Position) (first rest : Text) :
    scan pos first.length (first ++ rest) = scan (pos.advance first) 0 rest := by
  induction first generalizing pos with
  | nil => rfl
  | cons c cs ih => simpa [scan] using ih (pos.step c)

/-- `Scans pos text lexemes` says that a text that starts at the given place is cut into the given
lexemes. -/
inductive Scans : Position → Text → List Lexeme → Prop where
  | nil (pos) : Scans pos [] []
  | blank (pos c cs lexemes) :
      isBlank c = true → Scans (pos.step c) cs lexemes → Scans pos (c :: cs) lexemes
  | lexeme (pos c cs token word rest lexemes) :
      isBlank c = false → munch c cs = (token, word.length) → c :: cs = word ++ rest →
      Scans (pos.advance word) rest lexemes → Scans pos (c :: cs) (⟨token, word, pos⟩ :: lexemes)

/-- The scan cuts a text as `Scans` says. -/
theorem scans_scan (pos : Position) (text : Text) : Scans pos text (scan pos 0 text) := by
  induction hlength : text.length using Nat.strong_induction_on generalizing pos text with
  | _ length ih =>
      cases text with
      | nil => exact .nil pos
      | cons c cs =>
          cases hblank : isBlank c with
          | true =>
              rw [scan, hblank]
              exact .blank _ _ _ _ hblank (ih cs.length (by simp [← hlength]) _ _ rfl)
          | false =>
              rcases hmunch : munch c cs with ⟨token, count⟩
              obtain ⟨word, rest, hsplit, rfl, hshape⟩ := munched_of_munch hmunch
              obtain ⟨d, ds, rfl⟩ := List.exists_cons_of_ne_nil hshape.ne_nil
              simp only [List.cons_append, List.cons.injEq] at hsplit
              obtain ⟨rfl, rfl⟩ := hsplit
              have hscan : scan pos 0 (c :: (ds ++ rest)) =
                  ⟨token, c :: ds, pos⟩ :: scan (pos.advance (c :: ds)) 0 rest := by
                simp [scan, hblank, hmunch, scan_skip]
              rw [hscan]
              refine .lexeme _ _ _ _ _ _ _ hblank hmunch rfl (ih rest.length ?_ _ _ rfl)
              simp only [← hlength, List.length_cons, List.length_append]
              omega

/-- A text is cut in one way only. -/
theorem scans_unique {pos : Position} {text : Text} {lexemes others : List Lexeme}
    (h : Scans pos text lexemes) (hother : Scans pos text others) : lexemes = others := by
  induction h generalizing others with
  | nil pos =>
      cases hother
      rfl
  | blank pos c cs lexemes hblank hrest ih =>
      cases hother with
      | blank _ _ _ _ _ hrest => exact ih hrest
      | lexeme _ _ _ _ _ _ _ hblank' => simp [hblank] at hblank'
  | lexeme pos c cs token word rest lexemes hblank hmunch hsplit hrest ih =>
      cases hother with
      | blank _ _ _ _ hblank' => simp [hblank] at hblank'
      | lexeme _ _ _ token' word' rest' _ _ hmunch' hsplit' hrest' =>
          obtain ⟨rfl, hlength⟩ := Prod.mk.inj (hmunch.symm.trans hmunch')
          obtain ⟨rfl, rfl⟩ := List.append_inj (hsplit.symm.trans hsplit') hlength
          rw [ih hrest']

/-- `Scans` holds of the result of the scan and of nothing else. -/
theorem scans_iff {pos : Position} {text : Text} {lexemes : List Lexeme} :
    Scans pos text lexemes ↔ lexemes = scan pos 0 text := by
  constructor
  · exact fun h => scans_unique h (scans_scan pos text)
  · rintro rfl
    exact scans_scan pos text

/-- A text without lexemes is blank. -/
theorem blank_of_scans_nil {pos : Position} {text : Text} (h : Scans pos text []) :
    ∀ c ∈ text, isBlank c = true := by
  generalize hnone : ([] : List Lexeme) = none at h
  induction h with
  | nil pos => simp
  | blank pos c cs lexemes hblank hrest ih => exact List.forall_mem_cons.2 ⟨hblank, ih hnone⟩
  | lexeme => cases hnone

/-- Before the first lexeme of a text stand blanks, and after it stand the others. -/
theorem scans_cons {pos : Position} {text : Text} {lexeme : Lexeme} {rest : List Lexeme}
    (h : Scans pos text (lexeme :: rest)) :
    ∃ gap after, text = gap ++ lexeme.text ++ after ∧ (∀ c ∈ gap, isBlank c = true) ∧
      lexeme.pos = pos.advance gap ∧ Munched lexeme.token lexeme.text after ∧
      Scans (pos.advance (gap ++ lexeme.text)) after rest := by
  generalize hall : lexeme :: rest = lexemes at h
  induction h with
  | nil pos => cases hall
  | blank pos c cs lexemes hblank hrest ih =>
      obtain ⟨gap, after, rfl, hgap, hpos, hshape, hafter⟩ := ih hall
      exact ⟨c :: gap, after, rfl, List.forall_mem_cons.2 ⟨hblank, hgap⟩, hpos, hshape, hafter⟩
  | lexeme pos c cs token word after lexemes hblank hmunch hsplit hrest ih =>
      cases hall
      exact ⟨[], after, hsplit, by simp, rfl, munched_of_split hmunch hsplit, hrest⟩

/-- The last lexemes of a text are those of a last part of it. The part before ends with the lexeme
that stands before them. -/
theorem scans_append {pos : Position} {text : Text} {first rest : List Lexeme}
    (h : Scans pos text (first ++ rest)) :
    ∃ before after, text = before ++ after ∧ Scans (pos.advance before) after rest ∧
      (first = [] → before = []) ∧
      ∀ lexeme ∈ first.getLast?, ∃ start, before = start ++ lexeme.text ∧
        lexeme.pos = pos.advance start := by
  induction first generalizing pos text with
  | nil => exact ⟨[], text, rfl, h, fun _ => rfl, by simp⟩
  | cons lexeme first ih =>
      obtain ⟨gap, after, rfl, -, hpos, -, hafter⟩ := scans_cons h
      obtain ⟨before, last, rfl, hlast, hnone, hbefore⟩ := ih hafter
      refine ⟨gap ++ lexeme.text ++ before, last, by simp, by simpa using hlast, by simp, ?_⟩
      cases first with
      | nil =>
          rw [hnone rfl]
          rintro found ⟨⟩
          exact ⟨gap, by simp, hpos⟩
      | cons second others =>
          intro found hfound
          obtain ⟨start, hstart, hfoundpos⟩ := hbefore found (by simpa using hfound)
          exact ⟨gap ++ lexeme.text ++ start, by simp [hstart], by simpa using hfoundpos⟩

/-- A lexeme stands at its place in the text. -/
theorem exists_of_mem_scans {pos : Position} {text : Text} {lexemes : List Lexeme} {lexeme : Lexeme}
    (h : Scans pos text lexemes) (hlexeme : lexeme ∈ lexemes) :
    ∃ before after, text = before ++ lexeme.text ++ after ∧ lexeme.pos = pos.advance before ∧
      Munched lexeme.token lexeme.text after := by
  obtain ⟨first, rest, rfl⟩ := List.append_of_mem hlexeme
  obtain ⟨before, last, rfl, hlast, -, -⟩ := scans_append h
  obtain ⟨gap, after, rfl, -, hpos, hshape, -⟩ := scans_cons hlast
  exact ⟨before ++ gap, after, by simp, by simpa using hpos, hshape⟩

/-- Of two lexemes the first stands whole before the second. -/
theorem scans_apart {pos : Position} {text : Text} {lexemes : List Lexeme}
    (h : Scans pos text lexemes) :
    lexemes.Pairwise fun first second => ∃ before between after,
      text = before ++ first.text ++ between ++ second.text ++ after ∧
      first.pos = pos.advance before ∧
      second.pos = pos.advance (before ++ first.text ++ between) := by
  induction lexemes generalizing pos text with
  | nil => exact .nil
  | cons lexeme rest ih =>
      obtain ⟨gap, after, rfl, -, hpos, -, hafter⟩ := scans_cons h
      refine List.pairwise_cons.2 ⟨fun second hsecond => ?_, (ih hafter).imp ?_⟩
      · obtain ⟨between, last, rfl, hplace, -⟩ := exists_of_mem_scans hafter hsecond
        rw [← Position.advance_append] at hplace
        exact ⟨gap, between, last, by simp, hpos, hplace⟩
      · rintro first second ⟨before, between, last, rfl, hfirst, hsecond⟩
        rw [← Position.advance_append] at hfirst hsecond
        exact ⟨gap ++ lexeme.text ++ before, between, last, by simp, hfirst, by simpa using hsecond⟩

/-- Lexemes stand in the order of reading, none before the start of the text. -/
theorem scans_sorted {pos : Position} {text : Text} {lexemes : List Lexeme}
    (h : Scans pos text lexemes) :
    (∀ lexeme ∈ lexemes, lexeme.pos = pos ∨ pos.Before lexeme.pos) ∧
      lexemes.Pairwise (·.pos.Before ·.pos) := by
  induction h with
  | nil pos => simp
  | blank pos c cs lexemes hblank hrest ih =>
      refine ⟨fun lexeme hlexeme => .inr ?_, ih.2⟩
      obtain hpos | hpos := ih.1 lexeme hlexeme
      · exact hpos ▸ pos.before_step c
      · exact (pos.before_step c).trans hpos
  | lexeme pos c cs token word rest lexemes hblank hmunch hsplit hrest ih =>
      have hword := (munched_of_split hmunch hsplit).ne_nil
      have hlater : ∀ lexeme ∈ lexemes, pos.Before lexeme.pos := by
        intro lexeme hlexeme
        obtain hpos | hpos := ih.1 lexeme hlexeme
        · exact hpos ▸ pos.before_advance hword
        · exact (pos.before_advance hword).trans hpos
      refine ⟨?_, List.pairwise_cons.2 ⟨hlater, ih.2⟩⟩
      rintro lexeme (_ | ⟨_, hlexeme⟩)
      · exact .inl rfl
      · exact .inr (hlater lexeme hlexeme)

/-- Every character of a text is blank or belongs to a lexeme. -/
theorem scans_cover {pos : Position} {before after : Text} {c : Char} {lexemes : List Lexeme}
    (h : Scans pos (before ++ c :: after) lexemes) (hc : isBlank c = false) :
    ∃ lexeme ∈ lexemes, ∃ start first second last, before = start ++ first ∧
      lexeme.text = first ++ c :: second ∧ after = second ++ last ∧
      lexeme.pos = pos.advance start := by
  generalize htext : before ++ c :: after = text at h
  induction h generalizing before with
  | nil pos => simp at htext
  | blank pos d cs lexemes hblank hrest ih =>
      cases before with
      | nil => simp_all
      | cons b before =>
          obtain ⟨rfl, hcs⟩ : b = d ∧ before ++ c :: after = cs := by simpa using htext
          obtain ⟨lexeme, hlexeme, start, first, second, last, rfl, htexts, hafter, hpos⟩ := ih hcs
          exact ⟨lexeme, hlexeme, b :: start, first, second, last, rfl, htexts, hafter, hpos⟩
  | lexeme pos d cs token word rest lexemes hblank hmunch hsplit hrest ih =>
      -- A character after the first lexeme belongs to a later one.
      have hlater : ∀ between, before = word ++ between → rest = between ++ c :: after →
          ∃ lexeme ∈ ⟨token, word, pos⟩ :: lexemes, ∃ start first second last,
            before = start ++ first ∧ lexeme.text = first ++ c :: second ∧
            after = second ++ last ∧ lexeme.pos = pos.advance start := by
        rintro between rfl hrest
        obtain ⟨lexeme, hlexeme, start, first, second, last, rfl, htexts, hafter, hpos⟩ :=
          ih hrest.symm
        exact ⟨lexeme, List.mem_cons_of_mem _ hlexeme, word ++ start, first, second, last,
          by simp, htexts, hafter, by simpa using hpos⟩
      obtain ⟨between, hword, hrest⟩ | ⟨between, hbefore, hrest⟩ :=
        List.append_eq_append_iff.1 (htext.trans hsplit)
      · cases between with
        | nil => exact hlater [] (by simp_all) hrest.symm
        | cons d second =>
            obtain ⟨rfl, hafter⟩ := List.cons.inj hrest
            exact ⟨_, List.mem_cons_self, [], before, second, rest, rfl, hword, hafter, rfl⟩
      · exact hlater between hbefore hrest

end Lexeme

end Highlighter
