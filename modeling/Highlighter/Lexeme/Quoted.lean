import Highlighter.Text.Basic

/-!
# Quoted literals

A string or a key may be written between quotes, with a backslash before a character that would not
stand for itself. `decode` reads the inside of such a literal.
-/

namespace Highlighter.Quoted

/-- The character that an escape stands for. -/
def unescape : Char → Char
  | 'n' => '\n'
  | 't' => '\t'
  | 'r' => '\r'
  | '0' => '\x00'
  | c => c

/-- The text that the inside of a literal stands for. A backslash at the end stands for itself. -/
def decode : Text → Text
  | [] => []
  | [c] => [c]
  | c :: d :: rest => if c = '\\' then unescape d :: decode rest else c :: decode (d :: rest)

/-- The text that a literal stands for: its inside, without the first and the last character. -/
def unquote (literal : Text) : Text :=
  decode (literal.drop 1).dropLast

end Highlighter.Quoted
