import Highlighter.Text.Basic

/-!
# The shape of a number

A number is a run of digits, then optionally a point and a run of digits, then optionally an
exponent mark, a sign and a run of digits. An optional part that is not complete is no part of the
number. The functions here count characters and take the notion of a digit as a parameter: a
document's own numbers are written in ASCII digits, while the line patterns accept the digits of
every script.
-/

namespace Highlighter.Number

variable (isDigit : Char → Bool)

/-- The number of digits at the front. -/
def digitCount (text : Text) : Nat :=
  (text.takeWhile isDigit).length

/-- The length of a point and its digits at the front, and zero without them. -/
def fractionLength : Text → Nat
  | c :: cs => if c = '.' && digitCount isDigit cs ≠ 0 then digitCount isDigit cs + 1 else 0
  | [] => 0

/-- The length of an optional sign and its digits at the front, and zero without digits. -/
def signedLength : Text → Nat
  | c :: cs =>
      if c = '+' || c = '-' then
        if digitCount isDigit cs ≠ 0 then digitCount isDigit cs + 1 else 0
      else digitCount isDigit (c :: cs)
  | [] => 0

/-- The length of an exponent mark, its sign and its digits at the front, and zero without them. -/
def exponentLength : Text → Nat
  | c :: cs =>
      if (c = 'e' || c = 'E') && signedLength isDigit cs ≠ 0 then signedLength isDigit cs + 1 else 0
  | [] => 0

/-- The length of the longest unsigned number at the front, and zero when it does not start with a
digit. -/
def length (text : Text) : Nat :=
  let whole := digitCount isDigit text
  if whole = 0 then 0
  else
    let fraction := fractionLength isDigit (text.drop whole)
    whole + fraction + exponentLength isDigit (text.drop (whole + fraction))

end Highlighter.Number
