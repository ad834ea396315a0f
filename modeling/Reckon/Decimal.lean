import Reckon.Double.Nearest

/-!
# Plain decimals

The numbers of an expression are plain decimals: digits with at most one point
among, before or after them, and no sign. A decimal is kept exactly, as a
coefficient and a number of places, and becomes a double only by the rounding of
`Double.nearest`. So two spellings of one number, with zeros in front, zeros at
the end or a bare point, give the same double.
-/

namespace Reckon

/-- The number `coefficient / 10 ^ places`. -/
structure Decimal where
  coefficient : Nat
  places : Nat
  deriving DecidableEq, Repr

namespace Decimal

/-- The value of a digit sequence, read from the left. -/
def valueOf (digits : List Char) : Nat :=
  digits.foldl (fun value digit => 10 * value + (digit.toNat - '0'.toNat)) 0

/-- Read a plain decimal. One digit has to stand on some side of the point. -/
def ofChars? (text : List Char) : Option Decimal :=
  let whole := text.takeWhile Char.isDigit
  match text.dropWhile Char.isDigit with
  | [] => if whole.isEmpty then none else some { coefficient := valueOf whole, places := 0 }
  | mark :: fraction =>
      if mark = '.' ∧ fraction.all Char.isDigit ∧ ¬(whole ++ fraction).isEmpty then
        some { coefficient := valueOf (whole ++ fraction), places := fraction.length }
      else none

/-- The double nearest to a decimal. -/
def toFloat (decimal : Decimal) : Float :=
  Double.nearest decimal.coefficient (Nat.pow 10 decimal.places)

end Decimal

end Reckon
