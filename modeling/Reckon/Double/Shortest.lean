import Reckon.Double.Nearest

/-!
# The shortest decimal

A double is shown by the decimal with the fewest digits that reads back as the
same double, and by the nearest of these if there are several.

A finite double is a whole number of units of 10⁻¹⁰⁷⁴, its *expansion*. The
decimals with a given number of digits form a grid of multiples of a power of
ten, and if any grid point reads back as the double then one of the two beside
the expansion does. The search starts at the coarsest grid, that of one digit,
and ends at the latest at the expansion itself.
-/

namespace Reckon.Double

/-- One is this many units of 10⁻¹⁰⁷⁴, written as a power of ten. -/
def expansionPlaces : Nat := 1074

/-- The exact decimal expansion of a finite double, in units of 10⁻¹⁰⁷⁴. -/
def expansion (bits : Nat) : Nat :=
  (Magnitude.ofBits bits).units * Nat.pow 5 expansionPlaces

/-- The decimal `coefficient · 10 ^ power`, in units of 10⁻¹⁰⁷⁴, reads back as
the double. -/
def readsBack (bits coefficient power : Nat) : Bool :=
  nearestBits (coefficient * Nat.pow 10 power) (Nat.pow 10 expansionPlaces) == bits

/-- The point of a grid beside the expansion that reads back as the double, the
nearer one first and of two equally near the even one. -/
def gridPoint? (bits power : Nat) : Option Nat :=
  let spacing := Nat.pow 10 power
  let below := expansion bits / spacing
  let nearer := roundQuotient (expansion bits) spacing
  let farther := if nearer = below then below + 1 else below
  if readsBack bits nearer power then some nearer
  else if readsBack bits farther power then some farther
  else none

/-- The coefficient and the power of the first grid, from the given one to ever
finer ones, on which a point is found, or the given coefficient on the
finest. -/
def searchFrom (point? : Nat → Option Nat) (last : Nat) : (power : Nat) → Nat × Nat
  | 0 => (last, 0)
  | power + 1 =>
      match point? (power + 1) with
      | some coefficient => (coefficient, power + 1)
      | none => searchFrom point? last power

/-- The shortest decimal of a finite double: a coefficient and a power of ten,
in units of 10⁻¹⁰⁷⁴. -/
def shortest (bits : Nat) : Nat × Nat :=
  searchFrom (gridPoint? bits) (expansion bits) ((Nat.toDigits 10 (expansion bits)).length - 1)

end Reckon.Double
