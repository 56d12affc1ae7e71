import Highlighter.Lexeme.Basic
import Highlighter.Outcome

/-!
# Syntax errors

A document is rejected for one of two causes: a lexeme, or the end of the input, stands where the
grammar admits something else, or a key occurs a second time in its body. The wording of both is
`SyntaxError.message`.
-/

namespace Highlighter

/-- What the grammar admits at a place. -/
inductive Expectation where
  | key
  | equals
  | value
  | commaOrNewline
  | commaOrBrace
  | commaOrBracket
  | closeBrace
  | closeBracket
  deriving DecidableEq, Repr

/-- The wording of an expectation. -/
def Expectation.text : Expectation → Text
  | .key => "expected key".toList
  | .equals => "expected '='".toList
  | .value => "expected value".toList
  | .commaOrNewline => "expected ',' or newline".toList
  | .commaOrBrace => "expected ',' or '\x7d'".toList
  | .commaOrBracket => "expected ',' or ']'".toList
  | .closeBrace => "expected '\x7d'".toList
  | .closeBracket => "expected ']'".toList

/-- What stands at a place. -/
inductive Found where
  | endOfInput
  | endOfLine
  | token (text : Text)
  | unmatched (text : Text)
  deriving DecidableEq, Repr

namespace Found

/-- A lexeme as something found. -/
def ofLexeme (lexeme : Lexeme) : Found :=
  match lexeme.token with
  | none => .unmatched lexeme.text
  | some .newline => .endOfLine
  | some _ => .token lexeme.text

/-- The text of what was found, if it has one. -/
def text? : Found → Option Text
  | .endOfInput => none
  | .endOfLine => none
  | .token text => some text
  | .unmatched text => some text

/-- The wording of what was found. -/
def describe : Found → Text
  | .endOfInput => "end of input".toList
  | .endOfLine => "end of line".toList
  | .token text => "`".toList ++ text ++ "`".toList
  | .unmatched text => "`".toList ++ text ++ "`".toList

end Found

/-- The causes for which a document is rejected. -/
inductive SyntaxError where
  /-- Something other than what the grammar admits stands at a place. -/
  | unexpected (expected : Expectation) (found : Found) (pos : Position)
  /-- The key of the entry at a place is the key of an earlier entry of the same body. -/
  | duplicateKey (key : Text) (pos : Position)
  deriving DecidableEq, Repr

namespace SyntaxError

/-- The place of an error. -/
def pos : SyntaxError → Position
  | .unexpected _ _ pos => pos
  | .duplicateKey _ pos => pos

/-- What went wrong. A piece that is no token is called so whatever was expected. -/
def what : SyntaxError → Text
  | .unexpected _ (.unmatched _) _ => "unexpected character".toList
  | .unexpected expected _ _ => expected.text
  | .duplicateKey _ _ => "duplicate key".toList

/-- What was found at the place of an error. -/
def found : SyntaxError → Found
  | .unexpected _ found _ => found
  | .duplicateKey key _ => .token key

/-- The wording of an error: what went wrong, where, and what was found there. -/
def message (error : SyntaxError) : Text :=
  error.what ++ " at line ".toList ++ Text.ofNat error.pos.line ++ ", col ".toList ++
    Text.ofNat error.pos.column ++ ", got ".toList ++ error.found.describe

/-- An error as a parser reports it. -/
def toParseError (error : SyntaxError) : ParseError where
  message := error.message
  line := some error.pos.line
  column := some error.pos.column
  token := error.found.text?

end SyntaxError

end Highlighter
