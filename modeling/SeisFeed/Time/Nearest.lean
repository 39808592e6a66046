/-!
# The nearest whole number

The whole number nearest to a fraction, and to a multiple of a floating-point number taken at its
exact value. A tie goes to the even neighbour.
-/

namespace SeisFeed.Time

def nearest (num den : Nat) : Nat :=
  let floor := num / den
  let excess := 2 * (num % den)
  if excess < den ∨ (excess = den ∧ floor % 2 = 0) then floor else floor + 1

/-- The digits and the exponent of a floating-point number: apart from its sign it is the first
times two to the power of the second less 1075. -/
def digitsAndExponent (x : Float) : Nat × Nat :=
  let bits := x.toBits.toNat % Nat.pow 2 63
  let fraction := bits % Nat.pow 2 52
  let exponent := bits / Nat.pow 2 52
  if exponent = 0 then (fraction, 1) else (fraction + Nat.pow 2 52, exponent)

/-- The whole number nearest to `scale` times a floating-point number that is not negative. -/
def nearestMultiple (scale : Nat) (x : Float) : Nat :=
  let (digits, exponent) := digitsAndExponent x
  nearest (digits * scale * Nat.pow 2 (exponent - 1075)) (Nat.pow 2 (1075 - exponent))

end SeisFeed.Time
