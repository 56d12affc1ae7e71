import Highlighter.Proofs.ErrorLines
import Highlighter.Proofs.KeySearch

/-!
# Every text has a literal

A text can be written between either kind of quotes, whatever is in it: `encode` writes the inside
of the literal. That stands for the text again (`decode_encode`), and it holds no quote that could
close the literal early (`literal_encode`), so the scan takes the literal as one string
(`ScansAs.literal`). An entry whose key and value are scanned as they stand has three lexemes
(`tokenize_entry`) and is read as such (`read_entry`). So a literal is read back as the text it was
written for, as a value and as a key (`literal_read_back`).
-/

namespace Highlighter

namespace Quoted

/-- The inside of a literal for a text: backslashes and quotes are escaped, and a line feed is
written as an escape. -/
def encode (quote : Char) : Text → Text
  | [] => []
  | c :: rest =>
      if c = '\\' || c = quote then '\\' :: c :: encode quote rest
      else if c = '\n' then '\\' :: 'n' :: encode quote rest
      else c :: encode quote rest

/-- A literal for a text between the given quotes. -/
def literal (quote : Char) (text : Text) : Text :=
  quote :: encode quote text ++ [quote]

/-- The inside of a literal stands for the text that it was written for. -/
theorem decode_encode {quote : Char} (hquote : isQuote quote = true) (text : Text) :
    decode (encode quote text) = text := by
  -- An escaped backslash or quote stands for itself.
  have hself : unescape '\\' = '\\' ∧ unescape quote = quote := by
    obtain rfl | rfl : quote = '"' ∨ quote = '\'' := by simpa [isQuote] using hquote
    · exact ⟨rfl, rfl⟩
    · exact ⟨rfl, rfl⟩
  induction text with
  | nil => rfl
  | cons c rest ih =>
      rw [encode]
      split
      · next hescaped =>
          have hchar : unescape c = c := by
            obtain rfl | rfl : c = '\\' ∨ c = quote := by simpa using hescaped
            · exact hself.1
            · exact hself.2
          rw [decode, if_pos rfl, hchar, ih]
      · next hplain =>
          split
          · next hfeed =>
              rw [decode, if_pos rfl, ih, hfeed]
              rfl
          · have hslash : c ≠ '\\' := by
              rintro rfl
              simp at hplain
            rw [decode_cons hslash, ih]

/-- A literal stands for the text that it was written for. -/
theorem unquote_literal {quote : Char} (hquote : isQuote quote = true) (text : Text) :
    unquote (literal quote text) = text := by
  rw [unquote, literal, List.cons_append, List.drop_one, List.tail_cons, List.dropLast_concat,
    decode_encode hquote]

/-- A literal is closed by its last quote and by none before. -/
theorem literal_encode {quote : Char} (hquote : isQuote quote = true) (text : Text) :
    Lexeme.Literal quote (encode quote text ++ [quote]) := by
  have hfeed : quote ≠ '\n' := by
    rintro rfl
    cases hquote
  induction text with
  | nil => exact .close
  | cons c rest ih =>
      rw [encode]
      split
      · next hescaped =>
          refine .escape c _ ?_ ih
          obtain rfl | rfl : c = '\\' ∨ c = quote := by simpa using hescaped
          · decide
          · exact hfeed
      · next hplain =>
          obtain ⟨hslash, hopen⟩ : c ≠ '\\' ∧ c ≠ quote := by simpa using hplain
          split
          · exact .escape 'n' _ (by decide) ih
          · next hline => exact .other c _ hopen hslash hline ih

end Quoted

namespace Lexeme

/-- `ScansAs token word rest` says that the scan takes the whole of a word as one lexeme with the
given token where the given rest follows it. -/
def ScansAs (token : Option Token) (word rest : Text) : Prop :=
  ∃ c tail, word = c :: tail ∧ isBlank c = false ∧ munch c (tail ++ rest) = (token, word.length)

/-- A literal is one string, whatever follows it. -/
theorem ScansAs.literal {quote : Char} (hquote : isQuote quote = true) (text rest : Text) :
    ScansAs (some .string) (Quoted.literal quote text) rest := by
  have hlength := quoted_length_of_literal hquote (Quoted.literal_encode hquote text) rest
  refine ⟨quote, Quoted.encode quote text ++ [quote], rfl, ?_, ?_⟩
  · obtain rfl | rfl : quote = '"' ∨ quote = '\'' := by simpa [isQuote] using hquote
    · rfl
    · rfl
  · rw [munch_quote hquote, hlength]
    rfl

/-- A word that is scanned as a lexeme is the first one of a text that starts with it. -/
theorem ScansAs.scans {token : Option Token} {word rest : Text} {lexemes : List Lexeme}
    (pos : Position) (h : ScansAs token word rest)
    (hrest : Scans (pos.advance word) rest lexemes) :
    Scans pos (word ++ rest) (⟨token, word, pos⟩ :: lexemes) := by
  obtain ⟨c, tail, rfl, hblank, hmunch⟩ := h
  exact .lexeme _ _ _ _ _ _ _ hblank hmunch rfl hrest

/-- A word that is scanned as a lexeme stands on one line, unless it is a line feed. -/
theorem ScansAs.feedless {token : Option Token} {word rest : Text} (h : ScansAs token word rest)
    (htoken : token ≠ some .newline) : '\n' ∉ word := by
  obtain ⟨c, tail, rfl, -, hmunch⟩ := h
  exact feedless_of_munch hmunch rfl htoken

/-- The lexemes of an entry are its key, the equals sign and its value. -/
theorem tokenize_entry {keyToken valueToken : Option Token} {key value : Text}
    (hkey : ScansAs keyToken key (' ' :: '=' :: ' ' :: value))
    (hvalue : ScansAs valueToken value []) :
    tokenize (key ++ ' ' :: '=' :: ' ' :: value) =
      [⟨keyToken, key, Position.start⟩,
        ⟨some .equals, ['='], Position.start.advance (key ++ [' '])⟩,
        ⟨valueToken, value, Position.start.advance (key ++ [' ', '=', ' '])⟩] := by
  symm
  refine scans_iff.1 (hkey.scans _ (.blank _ _ _ _ rfl ?_))
  rw [Position.advance_append, Position.advance_append]
  refine .lexeme _ '=' (' ' :: value) _ ['='] _ _ rfl rfl rfl (.blank _ _ _ _ rfl ?_)
  have hlast := hvalue.scans ((Position.start.advance key).advance [' ', '=', ' ']) (.nil _)
  rwa [List.append_nil] at hlast

end Lexeme

open Lexeme Grammar Reader

/-- A lexeme that is a scalar is read as a value. -/
theorem read_value_of_scalar {lexeme : Lexeme} {scalar : Scalar} (context : Context)
    (h : scalarOf? lexeme = some scalar) :
    readValue context lexeme = context.complete (.scalar scalar lexeme.pos.toSource) := by
  unfold scalarOf? at h
  split at h <;> simp_all [readValue]

/-- A lexeme that is a key is read as one where an entry may start. -/
theorem read_item_of_key {lexeme : Lexeme} {key : Text} (braces : Option Braces) (body : Body)
    (h : keyOf? lexeme = some key) :
    readItem braces body lexeme = .ok (.equals braces body key lexeme.pos) := by
  unfold keyOf? at h
  split at h <;> simp_all [readItem]

/-- A text of three lexemes that are a key, an equals sign and a scalar is read as one entry. -/
theorem read_entry {text name : Text} {scalar : Scalar} {key equals value : Lexeme}
    (htokens : tokenize text = [key, equals, value]) (hkey : keyOf? key = some name)
    (hequals : equals.token = some .equals) (hvalue : scalarOf? value = some scalar) :
    readDocument text = .ok
      { entries := [{ key := name, value := .scalar scalar value.pos.toSource,
                      pos := key.pos.toSource }] } := by
  have hrun : State.initial.run (tokenize text) = .ok (.entryEnd none .empty
      { key := name, value := .scalar scalar value.pos.toSource, pos := key.pos.toSource }) := by
    rw [htokens]
    refine run_cons_iff.2 ⟨_, read_item_of_key none .empty hkey, ?_⟩
    refine run_cons_iff.2 ⟨.value (.top .empty name key.pos), if_pos hequals, ?_⟩
    exact run_cons_iff.2 ⟨_, read_value_of_scalar _ hvalue, rfl⟩
  rw [readDocument, hrun]
  rfl

/-- A text is read back from its literal, whatever it holds and whichever quotes are around it: the
literal is the value of the only entry of a document, and the key of the only entry of another. -/
theorem literal_read_back (quote : Char) (hquote : quote = '"' ∨ quote = '\'') (text : Text) :
    let literal := Quoted.literal quote text
    readDocument ("k = ".toList ++ literal) = .ok
        { entries := [{ key := ['k'], value := .scalar (.string text) ⟨1, some 5⟩,
                        pos := ⟨1, some 1⟩ }] } ∧
      readDocument (literal ++ " = null".toList) = .ok
        { entries := [{ key := text, value := .scalar .null ⟨1, some (literal.length + 4)⟩,
                        pos := ⟨1, some 1⟩ }] } := by
  intro literal
  have hquote : isQuote quote = true := by simpa [isQuote] using hquote
  have hunquote : Quoted.unquote literal = text := Quoted.unquote_literal hquote text
  constructor
  · have hkey : ScansAs (some .ident) ['k'] (' ' :: '=' :: ' ' :: literal) :=
      ⟨'k', [], rfl, rfl, rfl⟩
    have htokens := tokenize_entry hkey (.literal hquote text [])
    exact read_entry htokens rfl rfl (congrArg (some ∘ Scalar.string) hunquote)
  · have hvalue : ScansAs (some .null) "null".toList [] := ⟨'n', "ull".toList, rfl, rfl, rfl⟩
    have htokens := tokenize_entry (.literal hquote text _) hvalue
    have hread := read_entry htokens (congrArg some hunquote) rfl rfl
    -- The literal ends on the line that it starts on.
    have hfeed : '\n' ∉ literal := (ScansAs.literal hquote text []).feedless (by simp)
    have hline : '\n' ∉ literal ++ [' ', '=', ' '] := by simp [hfeed]
    rw [Position.advance_in_line _ hline] at hread
    rw [show literal.length + 4 = 1 + (literal ++ [' ', '=', ' ']).length by simp; omega]
    exact hread

/-- A text with a line feed, both quotes, a comment marker and a backslash at its end, and the same
as a key. -/
theorem literal_read_back_marked :
    let text : Text := "é\n\"//'\\".toList
    Quoted.literal '"' text = "\"é\\n\\\"//'\\\\\"".toList ∧
      readDocument ("k = ".toList ++ Quoted.literal '"' text) = .ok
        { entries := [{ key := ['k'], value := .scalar (.string text) ⟨1, some 5⟩,
                        pos := ⟨1, some 1⟩ }] } ∧
      readDocument (Quoted.literal '"' text ++ " = null".toList) = .ok
        { entries := [{ key := text, value := .scalar .null ⟨1, some 16⟩,
                        pos := ⟨1, some 1⟩ }] } := by
  intro text
  exact ⟨by decide +kernel, literal_read_back '"' (.inl rfl) text⟩

end Highlighter
