/-!
# Magnitudes of doubles

A double is a sign and a magnitude. Read as a number, the 63 bits of the
magnitude order the doubles without sign: zero, the finite ones in increasing
order, infinity, and the patterns that are no number.

A finite magnitude is a whole number of *units* of 2⁻¹⁰⁷⁴, namely its
significand shifted left. The same reading runs backwards: `Magnitude.bits` adds
the shift, in steps of 2⁵², to the significand, and a significand that has just
grown to 2⁵³ carries into the shift by itself. Everything about finite doubles
is therefore arithmetic on natural numbers.
-/

namespace Reckon.Double

/-- The number of magnitudes between a power of two and the next. -/
def binade : Nat := Nat.pow 2 52

/-- One is this many units. -/
def unitsInOne : Nat := Nat.pow 2 1074

/-- The bits of an infinite magnitude. Smaller magnitudes are finite, and
greater ones no numbers. -/
def infiniteBits : Nat := 2047 * binade

/-- The bits of the magnitude that is no number. -/
def indefiniteBits : Nat := infiniteBits + binade / 2

/-- The weight of the sign bit. -/
def signWeight : Nat := Nat.pow 2 63

/-- A double with the sign bit set: a negative number, negative zero or negative
infinity. -/
def isNegative (x : Float) : Bool := signWeight ≤ x.toBits.toNat

/-- The bits of a double without its sign. -/
def magnitudeBits (x : Float) : Nat := x.toBits.toNat % signWeight

/-- The double of a sign and a magnitude. -/
def ofParts (negative : Bool) (magnitude : Nat) : Float :=
  Float.ofBits (UInt64.ofNat (if negative then signWeight + magnitude else magnitude))

/-- The bits of a double are those of its sign and of its magnitude. -/
theorem toBits_eq_parts (x : Float) :
    x.toBits.toNat = (if isNegative x then signWeight else 0) + magnitudeBits x := by
  have bound : x.toBits.toNat < 2 ^ 64 := x.toBits.toNat_lt
  by_cases negative : 2 ^ 63 ≤ x.toBits.toNat
  · simp only [isNegative, magnitudeBits, signWeight, Nat.pow_eq, negative, decide_true, if_true]
    omega
  · simp only [isNegative, magnitudeBits, signWeight, Nat.pow_eq, negative, decide_false,
      Bool.false_eq_true, if_false]
    omega

/-- A significand and the number of places by which it is shifted left. -/
structure Magnitude where
  significand : Nat
  shift : Nat
  deriving DecidableEq, Repr

namespace Magnitude

/-- The magnitude that the bits of a finite double stand for. Below the first
binade the bits are the significand; above it, the significand has a leading one
that the bits leave out. -/
def ofBits (bits : Nat) : Magnitude :=
  if bits < binade then { significand := bits, shift := 0 }
  else { significand := binade + bits % binade, shift := bits / binade - 1 }

/-- The bits of a magnitude. -/
def bits (magnitude : Magnitude) : Nat :=
  magnitude.shift * binade + magnitude.significand

/-- The magnitude in units. -/
def units (magnitude : Magnitude) : Nat :=
  magnitude.significand * Nat.pow 2 magnitude.shift

/-- Bits are read and written without loss. -/
theorem bits_ofBits (number : Nat) : (ofBits number).bits = number := by
  unfold ofBits
  split
  · simp [bits]
  · have large : binade ≤ number := by omega
    have split := Nat.div_add_mod number binade
    have quotient : 1 ≤ number / binade := (Nat.le_div_iff_mul_le (by decide)).mpr (by omega)
    simp only [bits, Nat.sub_mul, Nat.one_mul]
    have whole : binade ≤ number / binade * binade := by
      simpa using Nat.mul_le_mul_right binade quotient
    rw [Nat.mul_comm] at split
    omega

end Magnitude

end Reckon.Double
