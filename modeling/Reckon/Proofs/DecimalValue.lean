import Mathlib.Algebra.Order.Field.Rat
import Mathlib.Tactic.FieldSimp
import Mathlib.Tactic.NormNum
import Mathlib.Tactic.Ring
import Reckon.Proofs.Double.ReadBack
import Reckon.Proofs.PlainDecimal
import Reckon.Proofs.Spelling

/-!
# The number that a decimal denotes

A plain decimal denotes a rational number, and `denoted` says which one by the
places of its digits: each digit in front of the point counts ten times as much
as the next, and each one behind the point counts a tenth of its value at most.
Nothing is read into a coefficient there, and there is no rounding.

The reader keeps that number (`denoted_eq`), and the double is chosen by the
number alone (`numberValue_of_isPlain`). So it makes no difference how a number
is written: zeros in front, zeros behind the point or a bare point leave the
double as it is.
-/

namespace Reckon

namespace Double

/-- Equal quotients have one nearest double. Both are brought to a common
denominator, which does not change the double. -/
theorem nearest_congr {first second lower below : Nat} (positive : 0 < lower) (beneath : 0 < below)
    (same : first * below = second * lower) : nearest first lower = nearest second below := by
  have bits : nearestBits first lower = nearestBits second below :=
    calc nearestBits first lower
        = nearestBits (first * below) (lower * below) :=
          (nearestBits_mul_right first lower below beneath).symm
      _ = nearestBits (second * lower) (below * lower) := by rw [same, Nat.mul_comm lower]
      _ = nearestBits second below := nearestBits_mul_right second below lower positive
  exact congrArg (ofParts false) bits

/-- The double nearest to a rational number that is not negative, taken in
lowest terms. -/
def nearestTo (number : ℚ) : Float :=
  nearest number.num.natAbs number.den

/-- The double nearest to a quotient is that nearest to the rational number: the
quotient and its lowest terms are equal, so `nearest_congr` applies. -/
theorem nearest_eq_nearestTo (numerator : Nat) {denominator : Nat} (positive : 0 < denominator) :
    nearest numerator denominator = nearestTo ((numerator : ℚ) / denominator) := by
  generalize quotient : (numerator : ℚ) / denominator = number
  have nonnegative : 0 ≤ number.num := by
    rw [← quotient, Rat.num_nonneg]
    positivity
  refine nearest_congr positive number.den_pos ?_
  have above : (denominator : ℚ) ≠ 0 := by exact_mod_cast positive.ne'
  have below : (number.den : ℚ) ≠ 0 := by exact_mod_cast number.den_nz
  have equal : (numerator : ℚ) / denominator = number.num / number.den := by
    rw [quotient, Rat.num_div_den]
  rw [div_eq_div_iff above below] at equal
  have whole : (numerator : ℤ) * number.den = number.num * denominator := by exact_mod_cast equal
  rw [← Int.natAbs_of_nonneg nonnegative] at whole
  exact_mod_cast whole

end Double

namespace Decimal

/-- The number that a digit stands for. -/
def digitValue (digit : Char) : ℚ :=
  (digit.toNat - '0'.toNat : Nat)

/-- The number of the digits in front of a point, each counted at its own
place. -/
def wholePart : List Char → ℚ
  | [] => 0
  | digit :: rest => digitValue digit * 10 ^ rest.length + wholePart rest

/-- The number of the digits behind a point. The first of them counts a tenth,
and what follows it a tenth of what it would count by itself. -/
def fractionPart : List Char → ℚ
  | [] => 0
  | digit :: rest => (digitValue digit + fractionPart rest) / 10

/-- The rational number that a plain decimal denotes. The definition does not
use the reader, so that it can say what the reader has to keep. -/
def denoted (text : List Char) : ℚ :=
  wholePart (text.takeWhile (· ≠ '.')) + fractionPart ((text.dropWhile (· ≠ '.')).drop 1)

/-! ## What the reader makes of the digits -/

/-- A digit in front of others adds its value at its place, which the number of
digits behind it gives. -/
theorem valueOf_cons (digit : Char) (rest : List Char) :
    (valueOf (digit :: rest) : ℚ) = digitValue digit * 10 ^ rest.length + valueOf rest := by
  have split := valueOf_append [digit] rest
  have single : valueOf [digit] = digit.toNat - '0'.toNat := by simp [valueOf]
  rw [List.singleton_append, single, Nat.pow_eq] at split
  rw [split, digitValue]
  push_cast
  rfl

/-- Digits in front of a point are read as their number. -/
theorem wholePart_eq (digits : List Char) : wholePart digits = valueOf digits := by
  induction digits with
  | nil => simp [wholePart, valueOf]
  | cons digit rest ih => rw [wholePart, ih, valueOf_cons]

/-- Digits behind a point are read as a whole number, and every one of them is a
place. The two sides divide by ten step by step and all at once. -/
theorem fractionPart_eq (digits : List Char) :
    fractionPart digits = valueOf digits / 10 ^ digits.length := by
  induction digits with
  | nil => simp [fractionPart, valueOf]
  | cons digit rest ih =>
    rw [fractionPart, ih, valueOf_cons, List.length_cons, pow_succ]
    field_simp

theorem ne_point_of_isDigit {digits : List Char} (all : ∀ c ∈ digits, c.isDigit = true) :
    ∀ c ∈ digits, decide (c ≠ '.') = true := by
  intro c member
  have digit := all c member
  refine decide_eq_true ?_
  rintro rfl
  exact absurd digit (by decide)

/-- The number denoted by digits on both sides of a point, which ends the first
run of digits. -/
theorem denoted_point {whole : List Char} (fraction : List Char)
    (digits : ∀ c ∈ whole, c.isDigit = true) :
    denoted (whole ++ '.' :: fraction) = wholePart whole + fractionPart fraction := by
  have stop : ∀ c ∈ ('.' :: fraction).head?, decide (c ≠ '.') = false := by simp
  obtain ⟨taken, left⟩ := Text.takeWhile_run (ne_point_of_isDigit digits) stop
  rw [denoted, taken, left]
  rfl

theorem denoted_whole {whole : List Char} (digits : ∀ c ∈ whole, c.isDigit = true) :
    denoted whole = wholePart whole := by
  have stop : ∀ c ∈ ([] : List Char).head?, decide (c ≠ '.') = false := by simp
  obtain ⟨taken, left⟩ := Text.takeWhile_run (ne_point_of_isDigit digits) stop
  rw [List.append_nil] at taken left
  rw [denoted, taken, left]
  exact add_zero _

/-- The reader keeps the number that a text denotes: its coefficient over a
power of ten is the sum of the whole part and the fraction. The cases are those
of the reader, which finds a point behind the first digits or nothing. -/
theorem denoted_eq {text : List Char} {decimal : Decimal} (read : ofChars? text = some decimal) :
    denoted text = (decimal.coefficient : ℚ) / (10 ^ decimal.places : Nat) := by
  have split := @List.takeWhile_append_dropWhile _ Char.isDigit text
  have digits : ∀ c ∈ text.takeWhile Char.isDigit, c.isDigit = true :=
    fun c member => List.all_eq_true.mp List.all_takeWhile c member
  unfold ofChars? at read
  generalize text.takeWhile Char.isDigit = whole at *
  generalize text.dropWhile Char.isDigit = remaining at *
  subst split
  simp only at read
  split at read
  · obtain ⟨_, same⟩ := Option.ite_none_left_eq_some.mp read
    cases same
    rw [List.append_nil, denoted_whole digits, wholePart_eq]
    simp
  · rename_i mark fraction
    obtain ⟨⟨rfl, _, _⟩, same⟩ := Option.ite_none_right_eq_some.mp read
    cases same
    rw [denoted_point fraction digits, wholePart_eq, fractionPart_eq, valueOf_append, Nat.pow_eq]
    push_cast
    field_simp

/-! ## The double of a plain decimal -/

/-- A plain decimal has the double nearest to the number that it denotes. What
the reader makes of the digits does not show in the statement. -/
theorem numberValue_of_isPlain {text : List Char} (plain : IsPlain text) :
    numberValue text = .ok (Double.nearestTo (denoted text)) := by
  obtain ⟨decimal, read⟩ := Option.isSome_iff_exists.mp ((isSome_ofChars?_iff text).mpr plain)
  have double := Double.nearest_eq_nearestTo decimal.coefficient
    (show 0 < 10 ^ decimal.places from Double.ten_pow_pos decimal.places)
  rw [numberValue, read, denoted_eq read]
  exact congrArg Except.ok double

theorem numberValue_of_not_isPlain {text : List Char} (other : ¬IsPlain text) :
    numberValue text = .error (.malformedNumber text) := by
  rw [numberValue, (ofChars?_eq_none_iff text).mpr other]

/-- A text is refused exactly when it is not plain, and the error repeats the
text. -/
theorem numberValue_eq_error_iff (text : List Char) :
    numberValue text = .error (.malformedNumber text) ↔ ¬IsPlain text := by
  refine ⟨?_, numberValue_of_not_isPlain⟩
  intro refused plain
  rw [numberValue_of_isPlain plain] at refused
  cases refused

/-- A numeral fails to be plain only for its points or for want of a digit, as
it has no other characters than digits and points. -/
theorem not_isPlain_numeral_iff {text : List Char} (numeral : Token.IsNumeral text) :
    ¬IsPlain text ↔ 2 ≤ text.count '.' ∨ ∀ c ∈ text, c.isDigit = false := by
  have characters : ∀ c ∈ text, c.isDigit ∨ c = '.' := by
    intro c member
    simpa [Token.isNumeric] using numeral.2 c member
  unfold IsPlain
  constructor
  · intro other
    by_contra neither
    obtain ⟨few, some⟩ := not_or.mp neither
    refine other ⟨characters, Nat.le_of_lt_succ (Nat.lt_of_not_le few), ?_⟩
    simpa using some
  · rintro (many | none) ⟨_, few, c, member, digit⟩
    · omega
    · exact Bool.false_ne_true ((none c member).symm.trans digit)

/-- Plain decimals are read exactly. A text is read as a double if and only if
it is plain, and is refused otherwise; of a number in an expression, two points
or the want of a digit is what makes it malformed. The double is the one nearest
to the number that the text denotes, so two texts that denote the same number
are read as the same double.

Proof: the reader accepts the plain texts only (`isSome_ofChars?_iff`), and it
keeps the rational number (`denoted_eq`). Rounding does not see in which terms a
quotient is given (`nearest_congr`), so the number alone decides. That scanned
numbers are numerals comes from `canonical_scan`. -/
theorem numberValue_depends_on_denoted :
    (∀ text, (∃ value, numberValue text = .ok value) ↔ IsPlain text) ∧
    (∀ characters text, .number text ∈ Token.scan characters →
      (numberValue text = .error (.malformedNumber text) ↔
        2 ≤ text.count '.' ∨ ∀ c ∈ text, c.isDigit = false)) ∧
    (∀ text, IsPlain text → numberValue text = .ok (Double.nearestTo (denoted text))) ∧
    ∀ first second, IsPlain first → IsPlain second → denoted first = denoted second →
      numberValue first = numberValue second := by
  refine ⟨?_, ?_, fun text => numberValue_of_isPlain, ?_⟩
  · intro text
    refine ⟨?_, fun plain => ⟨_, numberValue_of_isPlain plain⟩⟩
    rintro ⟨value, read⟩
    by_contra other
    rw [numberValue_of_not_isPlain other] at read
    cases read
  · intro characters text member
    have numeral := (Token.canonical_scan characters).numerals text member
    rw [numberValue_eq_error_iff, not_isPlain_numeral_iff numeral]
  · intro first second firstPlain secondPlain same
    rw [numberValue_of_isPlain firstPlain, numberValue_of_isPlain secondPlain, same]

/-- Zeros on either side make no difference to one half, and it may do without a
digit in front. A number with two points is malformed, although it is scanned as
one number. -/
theorem halves_read_alike :
    IsPlain ['0', '0', '.', '5', '0'] ∧ IsPlain ['.', '5'] ∧
      denoted ['0', '0', '.', '5', '0'] = denoted ['.', '5'] ∧
      numberValue ['0', '0', '.', '5', '0'] = numberValue ['.', '5'] ∧
      .number ['1', '.', '2', '.', '3'] ∈ Token.scan ['1', '.', '2', '.', '3'] ∧
      numberValue ['1', '.', '2', '.', '3'] =
        .error (.malformedNumber ['1', '.', '2', '.', '3']) := by
  obtain ⟨_, malformed, _, alike⟩ := numberValue_depends_on_denoted
  have padded : IsPlain ['0', '0', '.', '5', '0'] := by decide
  have bare : IsPlain ['.', '5'] := by decide
  have same : denoted ['0', '0', '.', '5', '0'] = denoted ['.', '5'] := by
    have digits := @denoted_point ['0', '0'] ['5', '0'] (by simp)
    have none := @denoted_point [] ['5'] (by simp)
    refine digits.trans (Eq.trans ?_ none.symm)
    norm_num [wholePart, fractionPart, digitValue]
  have scanned :
      .number ['1', '.', '2', '.', '3'] ∈ Token.scan ['1', '.', '2', '.', '3'] := by decide
  exact ⟨padded, bare, same, alike _ _ padded bare same, scanned,
    (malformed _ _ scanned).mpr (.inl (by decide))⟩

end Decimal

end Reckon
