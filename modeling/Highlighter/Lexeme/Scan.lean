import Highlighter.Lexeme.Basic
import Highlighter.Lexeme.Number

/-!
# Scanning a text into lexemes

`Lexeme.tokenize` cuts a text into lexemes, left to right. Blanks between lexemes are skipped, and
each lexeme is the longest piece that matches a token; a word that spells a keyword is that keyword.
A piece that matches no token is one character, or an opening quote with all that a literal could
have held.

The scan recurses on the text itself. It counts the characters that still belong to the lexeme it
has just taken, so it passes every character exactly once.
-/

namespace Highlighter.Lexeme

/-- A character that only separates lexemes. -/
def isBlank (c : Char) : Bool :=
  c == ' ' || c == '\t' || c == '\r' || c == '\x0c'

/-- The length of a quoted literal after its opening quote, and whether its closing quote is part of
it. The literal ends at the first quote that no backslash escapes. Without one it runs up to a line
feed or the end of the text, and leaves out a backslash directly before either. -/
def quotedLength (quote : Char) : Text → Nat × Bool
  | [] => (0, false)
  | c :: cs =>
      if c = quote then (1, true)
      else if c = '\n' then (0, false)
      else if c = '\\' then
        match cs with
        | [] => (0, false)
        | d :: ds =>
            if d = '\n' then (0, false)
            else
              let (count, closed) := quotedLength quote ds
              (count + 2, closed)
      else
        let (count, closed) := quotedLength quote cs
        (count + 1, closed)

/-- The token spelled by a word. -/
def wordToken (word : Text) : Token :=
  if word = "true".toList then .bool true
  else if word = "false".toList then .bool false
  else if word = "null".toList then .null
  else .ident

/-- The token of a character that is a token by itself. -/
def charToken? : Char → Option Token
  | '\n' => some .newline
  | '=' => some .equals
  | ',' => some .comma
  | '\x7b' => some .openBrace
  | '\x7d' => some .closeBrace
  | '[' => some .openBracket
  | ']' => some .closeBracket
  | _ => none

/-- The lexeme that starts with the character `c` and has `rest` after it: its token and its
length. -/
def munch (c : Char) (rest : Text) : Option Token × Nat :=
  match charToken? c with
  | some token => (some token, 1)
  | none =>
      if c.isAlpha || c == '_' then
        let word := c :: rest.takeWhile Text.isIdentChar
        (some (wordToken word), word.length)
      else if c = '"' || c = '\'' then
        let (count, closed) := quotedLength c rest
        (if closed then some .string else none, count + 1)
      else if c.isDigit then
        (some .number, Number.length Char.isDigit (c :: rest))
      else if c = '-' && Number.length Char.isDigit rest ≠ 0 then
        (some .number, Number.length Char.isDigit rest + 1)
      else if c = '/' && rest.head? = some '/' then
        (some .comment, (rest.takeWhile (· ≠ '\n')).length + 1)
      else (none, 1)

/-- The lexemes from a place on. The first `skip` characters belong to a lexeme already taken. -/
def scan (pos : Position) (skip : Nat) : Text → List Lexeme
  | [] => []
  | c :: cs =>
      match skip with
      | skip + 1 => scan (pos.step c) skip cs
      | 0 =>
          if isBlank c then scan (pos.step c) 0 cs
          else
            let (token, count) := munch c cs
            ⟨token, (c :: cs).take count, pos⟩ :: scan (pos.step c) (count - 1) cs

/-- The lexemes of a text. -/
def tokenize (text : Text) : List Lexeme :=
  scan Position.start 0 text

/-- The place after the last character of a text. -/
def endPosition (text : Text) : Position :=
  Position.start.advance text

end Highlighter.Lexeme
