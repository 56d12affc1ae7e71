/-!
# Rounding a quotient

The nearest whole number to a quotient of two naturals, where a quotient halfway between two goes to
the even one.
-/

namespace Highlighter

/-- The whole number nearest to `num / den`, the even one of two equally near. -/
def roundHalfEven (num den : Nat) : Nat :=
  let whole := num / den
  let twice := 2 * (num % den)
  if den < twice || (twice = den && whole % 2 = 1) then whole + 1 else whole

end Highlighter
