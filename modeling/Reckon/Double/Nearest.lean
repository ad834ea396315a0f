import Reckon.Double.Magnitude

/-!
# The nearest double

`nearest` is the double closest to a quotient of natural numbers, a tie going to
the even significand. It depends on the quotient alone and not on the pair that
expresses it: `nearestBits_mul_right`.

A decimal in scientific form is such a quotient too. Its power of ten is written
out only if the decimal lies within reach of the finite doubles; beyond, the
answer is infinity or zero whatever the digits are.
-/

namespace Reckon.Double

/-- The integer nearest to a quotient; a tie goes to the even neighbour. -/
def roundQuotient (numerator denominator : Nat) : Nat :=
  let quotient := numerator / denominator
  let twice := 2 * (numerator % denominator)
  if twice < denominator then quotient
  else if denominator < twice then quotient + 1
  else quotient + quotient % 2

/-- Rounding a quotient looks at its value only. -/
theorem roundQuotient_mul_right (numerator denominator factor : Nat) (positive : 0 < factor) :
    roundQuotient (numerator * factor) (denominator * factor) =
      roundQuotient numerator denominator := by
  unfold roundQuotient
  simp only [Nat.mul_div_mul_right _ _ positive, Nat.mul_mod_mul_right, ← Nat.mul_assoc,
    Nat.mul_lt_mul_right positive]

/-- The bits of the double nearest to a quotient. The shift leaves a significand
of 53 bits, or of fewer when the quotient is too small for that; magnitudes too
great for a finite double are infinite. -/
def nearestBits (numerator denominator : Nat) : Nat :=
  let units := numerator * unitsInOne
  let shift := (units / denominator).log2 - 52
  let significand := roundQuotient units (denominator * Nat.pow 2 shift)
  min (Magnitude.bits { significand, shift }) infiniteBits

/-- The double nearest to a quotient. -/
def nearest (numerator denominator : Nat) : Float :=
  ofParts false (nearestBits numerator denominator)

/-- Two ways to write one quotient have one nearest double. -/
theorem nearestBits_mul_right (numerator denominator factor : Nat) (positive : 0 < factor) :
    nearestBits (numerator * factor) (denominator * factor) =
      nearestBits numerator denominator := by
  have regroup : numerator * factor * unitsInOne = numerator * unitsInOne * factor := by
    rw [Nat.mul_assoc, Nat.mul_comm factor, ← Nat.mul_assoc]
  have scaled (places : Nat) :
      denominator * factor * Nat.pow 2 places = denominator * Nat.pow 2 places * factor := by
    rw [Nat.mul_assoc, Nat.mul_comm factor, ← Nat.mul_assoc]
  simp only [nearestBits, regroup, scaled, Nat.mul_div_mul_right _ _ positive,
    roundQuotient_mul_right _ _ _ positive]

/-- Decimals at or above this power of ten are nearer to infinity than to any
finite double, and decimals below its inverse nearer to zero than to any
other. -/
def decimalReach : Nat := 400

/-- The bits of the double nearest to `coefficient · 10 ^ exponent`. -/
def scientificBits (coefficient : Nat) (exponent : Int) : Nat :=
  if coefficient = 0 then 0
  else if (decimalReach : Int) < exponent then infiniteBits
  else if exponent + (coefficient.log2 + 1) < -(decimalReach : Int) then 0
  else match exponent with
    | .ofNat power => nearestBits (coefficient * Nat.pow 10 power) 1
    | .negSucc power => nearestBits coefficient (Nat.pow 10 (power + 1))

/-- The double nearest to an integer of any size. -/
def ofInt (number : Int) : Float :=
  ofParts (number < 0) (nearestBits number.natAbs 1)

end Reckon.Double
