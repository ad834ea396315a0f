import Reckon.Decimal
import Reckon.Text.Blank
import Reckon.Text.Digit

/-!
# Numerals

A numeral is the free form in which a number may arrive from outside: padded
with blanks, signed, with an exponent, in the digits of any script, with single
underscores between digits, or one of the words for infinity and for what is no
number, in any case. `read?` accepts exactly these.

Reading goes in steps that each remove one freedom: padding, scripts,
underscores, sign. What is left is a word or a decimal with an optional
exponent.
-/

namespace Reckon.Numeral

/-- The characters that may pad a numeral: the blanks except the four
information separators. -/
def isPadding (c : Char) : Bool :=
  Text.isBlank c && !(0x1C ≤ c.toNat && c.toNat ≤ 0x1F)

/-- Replace a digit of any script by the usual one. -/
def usualDigit (c : Char) : Char :=
  match Text.digitValue? c with
  | some value => Nat.digitChar value
  | none => c

/-- Remove the underscores. Each has to stand between two digits; `afterDigit`
says whether the character before was one. -/
def joinGroups? (afterDigit : Bool) : List Char → Option (List Char)
  | [] => some []
  | c :: rest =>
      if c = '_' then
        if afterDigit && (rest.head?.any Char.isDigit) then joinGroups? false rest else none
      else (joinGroups? c.isDigit rest).map (c :: ·)

/-- Split a leading sign off; the answer says whether it is a minus. -/
def splitSign : List Char → Bool × List Char
  | '-' :: rest => (true, rest)
  | '+' :: rest => (false, rest)
  | rest => (false, rest)

/-- The power of ten after the digits of a decimal: nothing, or the letter `e`
and an integer. -/
def exponent? : List Char → Option Int
  | [] => some 0
  | mark :: rest =>
      let (negative, digits) := splitSign rest
      if mark.toLower = 'e' ∧ digits.all Char.isDigit ∧ ¬digits.isEmpty then
        let size : Int := Decimal.valueOf digits
        some (if negative then -size else size)
      else none

/-- Read a decimal with an optional exponent, as the bits of a magnitude. -/
def scientific? (text : List Char) : Option Nat :=
  let whole := text.takeWhile Char.isDigit
  let afterWhole := text.dropWhile Char.isDigit
  let pointed := afterWhole.head? = some '.'
  let afterPoint := if pointed then afterWhole.drop 1 else afterWhole
  let fraction := if pointed then afterPoint.takeWhile Char.isDigit else []
  let rest := if pointed then afterPoint.dropWhile Char.isDigit else afterPoint
  let written := whole ++ fraction
  if written.isEmpty then none
  else (exponent? rest).map fun power =>
    Double.scientificBits (Decimal.valueOf written) (power - fraction.length)

/-- Read a numeral without sign, a word or a decimal, as the bits of a
magnitude. -/
def unsigned? (text : List Char) : Option Nat :=
  let word := text.map Char.toLower
  if word = "inf".toList ∨ word = "infinity".toList then some Double.infiniteBits
  else if word = "nan".toList then some Double.indefiniteBits
  else scientific? text

/-- Read a numeral; any other text is refused. -/
def read? (text : List Char) : Option Float := do
  let plain ← joinGroups? false ((Text.trim isPadding text).map usualDigit)
  let (negative, magnitude) := splitSign plain
  let bits ← unsigned? magnitude
  return Double.ofParts negative bits

end Reckon.Numeral
