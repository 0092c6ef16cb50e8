import Mathlib.Data.Rat.Floor

/-!
# Rounding — round half to even, on the rationals

The rounding of the built-in `round` and of fixed-point formatting, in exact
arithmetic: to the nearest integer, a tie to the even one.
-/

namespace Rounding

/-- `round(q)` -/
def roundHalfEven (q : ℚ) : ℤ :=
  let n := ⌊q⌋
  let d := q - n
  if d < 1 / 2 then n
  else if 1 / 2 < d then n + 1
  else if n % 2 = 0 then n else n + 1

end Rounding
