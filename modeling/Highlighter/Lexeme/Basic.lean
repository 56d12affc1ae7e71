import Highlighter.Text.Basic

/-!
# Lexemes

A document is a sequence of lexemes: tokens of the language with their text and place, and pieces
that match no token. Lines are counted from one by line feeds, columns from one by characters.
-/

namespace Highlighter

/-- A place in a text. -/
structure Position where
  line : Nat
  column : Nat
  deriving DecidableEq, Repr

namespace Position

/-- The place of the first character. -/
def start : Position :=
  ⟨1, 1⟩

/-- The place after a character that stands at this one. -/
def step (pos : Position) (c : Char) : Position :=
  if c = '\n' then ⟨pos.line + 1, 1⟩ else ⟨pos.line, pos.column + 1⟩

/-- The place after a text that starts at this one. -/
def advance (pos : Position) (text : Text) : Position :=
  text.foldl step pos

end Position

/-- The tokens of the language. -/
inductive Token where
  | newline
  | equals
  | comma
  | openBrace
  | closeBrace
  | openBracket
  | closeBracket
  | bool (value : Bool)
  | null
  | ident
  | string
  | number
  | comment
  deriving DecidableEq, Repr

/-- What a token is called in prose. -/
def Token.describe : Token → String
  | .newline => "end of line"
  | .equals => "'='"
  | .comma => "','"
  | .openBrace => "'\x7b'"
  | .closeBrace => "'\x7d'"
  | .openBracket => "'['"
  | .closeBracket => "']'"
  | .bool _ => "boolean"
  | .null => "null"
  | .ident => "identifier"
  | .string => "string"
  | .number => "number"
  | .comment => "comment"

/-- A piece of a document. It has no token when its text matches none: a stray character or a
literal whose quote is not closed. -/
structure Lexeme where
  token : Option Token
  text : Text
  pos : Position
  deriving DecidableEq, Repr

end Highlighter
