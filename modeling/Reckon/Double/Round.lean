import Reckon.Double.Nearest

/-!
# Rounding to decimal places

Times are reported with a fixed number of decimal places. The exact value of the
double is rounded, not the text that shows it: 0.15 lies below fifteen
hundredths and 0.25 is exactly one quarter, so to one place the first becomes
0.1 and the second, a true tie, goes to the even 0.2.

Without decimal places the result is an integer and not a double: `nearestInt`.
-/

namespace Reckon.Double

/-- The double nearest to the decimal of the given number of places that is
nearest to a double. Ties between decimals go to the even last digit, the sign
of a zero is kept, and infinities and what is no number stay as they are. -/
def round (places : Nat) (x : Float) : Float :=
  let bits := magnitudeBits x
  if infiniteBits ≤ bits then x
  else
    let units := (Magnitude.ofBits bits).units
    let scaled := roundQuotient (units * Nat.pow 10 places) unitsInOne
    ofParts (isNegative x) (nearestBits scaled (Nat.pow 10 places))

/-- The integer nearest to a finite double; a tie goes to the even neighbour. -/
def nearestInt (x : Float) : Int :=
  let size : Int := roundQuotient (Magnitude.ofBits (magnitudeBits x)).units unitsInOne
  if isNegative x then -size else size

end Reckon.Double
