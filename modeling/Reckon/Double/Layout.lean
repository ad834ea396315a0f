import Reckon.Double.Shortest

/-!
# Doubles as text

The digits and the decimal exponent of a number are laid out in one of two ways.
Exponents within the positional range put the point where it belongs, with zeros
where digits are missing, and always leave a digit on either side of the point.
Other exponents are written out after the letter `e`, with a sign and at least
two digits, and a single digit of the number stands before the point.
-/

namespace Reckon.Double

/-- The choices of a layout: the least and the greatest exponent written
positionally, and the least number of exponent digits. -/
structure Layout where
  least : Int
  greatest : Int
  exponentDigits : Nat

/-- The layout of all values shown: positional from a ten-thousandth to below
10¹⁶. -/
def Layout.standard : Layout :=
  { least := -4, greatest := 15, exponentDigits := 2 }

/-- Remove the final zeros of a digit sequence, but never all its digits. -/
def dropFinalZeros (digits : List Char) : List Char :=
  match (digits.reverse.dropWhile (· == '0')).reverse with
  | [] => ['0']
  | kept => kept

/-- Fill a digit sequence with zeros on the left up to a width. -/
def fillLeft (width : Nat) (digits : List Char) : List Char :=
  List.replicate (width - digits.length) '0' ++ digits

/-- Lay out the number `d.ddd · 10 ^ exponent` with the given digits. -/
def Layout.write (layout : Layout) (digits : List Char) (exponent : Int) : List Char :=
  if layout.least ≤ exponent ∧ exponent ≤ layout.greatest then
    match exponent with
    | .ofNat places =>
        let whole := digits.take (places + 1)
        let fraction := digits.drop (places + 1)
        whole ++ List.replicate (places + 1 - whole.length) '0' ++
          '.' :: (if fraction.isEmpty then ['0'] else fraction)
    | .negSucc places => ['0', '.'] ++ List.replicate places '0' ++ digits
  else
    let fraction := digits.drop 1
    let sign := if exponent < 0 then '-' else '+'
    let power := fillLeft layout.exponentDigits (Nat.toDigits 10 exponent.natAbs)
    digits.take 1 ++ (if fraction.isEmpty then [] else '.' :: fraction) ++ 'e' :: sign :: power

/-- The digits and the decimal exponent of a finite double. -/
def digits (bits : Nat) : List Char × Int :=
  if bits = 0 then (['0'], 0)
  else
    let (coefficient, power) := shortest bits
    let written := Nat.toDigits 10 coefficient
    (dropFinalZeros written, ((written.length + power : Nat) : Int) - (expansionPlaces + 1 : Nat))

/-- The characters that show a double. What is no number has no sign. -/
def characters (x : Float) : List Char :=
  let bits := magnitudeBits x
  if infiniteBits < bits then ['n', 'a', 'n']
  else
    let sign := if isNegative x then ['-'] else []
    if bits = infiniteBits then sign ++ ['i', 'n', 'f']
    else
      let (digits, exponent) := digits bits
      sign ++ Layout.standard.write digits exponent

/-- The text that shows a double. -/
def text (x : Float) : String :=
  String.ofList (characters x)

end Reckon.Double
