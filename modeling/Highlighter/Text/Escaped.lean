import Highlighter.Text.Basic
import Highlighter.Text.GraphemeExtend
import Highlighter.Text.Printable

/-!
# Texts shown in quotes

A text in a message is shown between double quotes and with escapes, so that every character can be
seen. A quote and a backslash are escaped, and so are characters that print nothing or would attach
to the one before; a single quote is not.
-/

namespace Highlighter.Text

/-- A character by its code point in hexadecimal. -/
def escapedCode (c : Char) : Text :=
  "\\u\x7b".toList ++ Nat.toDigits 16 c.toNat ++ "\x7d".toList

/-- A character as it is shown between double quotes. -/
def escapedChar (c : Char) : Text :=
  match c with
  | '\x00' => "\\0".toList
  | '\t' => "\\t".toList
  | '\n' => "\\n".toList
  | '\r' => "\\r".toList
  | '"' => "\\\"".toList
  | '\\' => "\\\\".toList
  | c => if extendsGrapheme c || !isPrintable c then escapedCode c else [c]

/-- A text between double quotes. -/
def quoted (text : Text) : Text :=
  '"' :: text.flatMap escapedChar ++ ['"']

end Highlighter.Text
