import Highlighter.Lexeme.Number
import Highlighter.Rounding

/-!
# Numbers as binary64

The value of a numeral is the binary64 number nearest to it, the even one of two equally near; what
is too large is an infinity, and a zero keeps the sign of its numeral. A value is held as its bit
pattern and computed in exact natural arithmetic.
-/

namespace Highlighter

/-- A binary64 value by its bit pattern: the sign, eleven exponent bits and fifty-two fraction
bits. -/
structure Binary64 where
  bits : UInt64
  deriving DecidableEq, Repr

namespace Binary64

/-- The pattern of infinity. Every finite magnitude has a smaller one. -/
def infinity : Nat :=
  0x7ff0000000000000

/-- The pattern of the magnitude nearest to `num / den`, where both are positive. The quotient is
measured in units of `2 ^ exponent` so that it has fifty-three binary places, and no fewer than the
smallest unit allows. A significand that rounds up to the next power of two carries into the
exponent bits. -/
def ofQuotient (num den : Nat) : Nat :=
  let estimate : Int := (num.log2 : Int) - den.log2 - 53
  let scaled (exponent : Int) : Nat × Nat :=
    (num <<< (-exponent).toNat, den <<< exponent.toNat)
  let fits (exponent : Int) : Bool := (scaled exponent).1 < (scaled exponent).2 <<< 53
  let exponent := max (if fits estimate then estimate else estimate + 1) (-1074)
  let significand := roundHalfEven (scaled exponent).1 (scaled exponent).2
  min (((exponent + 1074).toNat <<< 52) + significand) infinity

/-- The pattern of the magnitude nearest to `mantissa * 10 ^ exponent`. A mantissa with `places`
digits makes the value less than `10 ^ (places + exponent)` and at least a tenth of it, so values
far outside the range are decided without computing the power. -/
def magnitude (mantissa : Nat) (exponent : Int) : Nat :=
  let places : Int := (Nat.toDigits 10 mantissa).length
  if mantissa = 0 || places + exponent < -330 then 0
  else if places + exponent > 310 then infinity
  else ofQuotient (mantissa * Nat.pow 10 exponent.toNat) (Nat.pow 10 (-exponent).toNat)

/-- The natural number written by a run of ASCII digits. -/
def digitsValue (digits : Text) : Nat :=
  digits.foldl (fun value c => 10 * value + (c.toNat - '0'.toNat)) 0

/-- The exponent written after an exponent mark, and zero without one. -/
def exponentValue : Text → Int
  | _ :: '-' :: digits => -(digitsValue digits : Int)
  | _ :: '+' :: digits => digitsValue digits
  | _ :: digits => digitsValue digits
  | [] => 0

/-- The value of an unsigned numeral, as the pattern of its magnitude. -/
def ofUnsigned (text : Text) : Nat :=
  let whole := text.takeWhile Char.isDigit
  let rest := text.dropWhile Char.isDigit
  let fraction := (rest.drop 1).take (Number.fractionLength Char.isDigit rest - 1)
  let mark := rest.drop (Number.fractionLength Char.isDigit rest)
  magnitude (digitsValue (whole ++ fraction)) (exponentValue mark - fraction.length)

/-- The value of a numeral. -/
def ofNumeral : Text → Binary64
  | '-' :: text => ⟨UInt64.ofNat ((1 <<< 63) + ofUnsigned text)⟩
  | text => ⟨UInt64.ofNat (ofUnsigned text)⟩

/-- The sixteen hexadecimal digits of the bit pattern. -/
def toHex (value : Binary64) : Text :=
  let digits := Nat.toDigits 16 value.bits.toNat
  List.replicate (16 - digits.length) '0' ++ digits

end Binary64

end Highlighter
