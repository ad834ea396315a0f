import Reckon.Double.Nearest

/-!
# Exact doubles and scientific decimals

A number that is a double is its own nearest double: `nearestBits_units`. And a
decimal in scientific form is read as the quotient that it is,
`scientificBits_eq`: the shortcuts for powers of ten beyond reach only save the
work of writing them out.
-/

namespace Reckon.Double

/-- A whole number is not rounded, because nothing is left over. -/
theorem roundQuotient_mul_self (number : Nat) {denominator : Nat} (positive : 0 < denominator) :
    roundQuotient (number * denominator) denominator = number := by
  unfold roundQuotient
  simp only [Nat.mul_div_cancel _ positive, Nat.mul_mod_left, Nat.mul_zero, positive, if_true]

/-- A quotient below one half is rounded to zero. -/
theorem roundQuotient_of_lt {numerator denominator : Nat} (small : 2 * numerator < denominator) :
    roundQuotient numerator denominator = 0 := by
  unfold roundQuotient
  have below : numerator < denominator := by omega
  simp only [Nat.div_eq_of_lt below, Nat.mod_eq_of_lt below, small, if_true]

/-- Rounding goes to the next whole number at most. -/
theorem roundQuotient_le (numerator denominator : Nat) :
    roundQuotient numerator denominator ≤ numerator / denominator + 1 := by
  unfold roundQuotient
  simp only
  split
  · omega
  · split <;> omega

theorem two_pow_pos (power : Nat) : 0 < Nat.pow 2 power :=
  Nat.pow_pos (by decide)

theorem ten_pow_pos (power : Nat) : 0 < Nat.pow 10 power :=
  Nat.pow_pos (by decide)

theorem unitsInOne_pos : 0 < unitsInOne := by
  decide +kernel

/-- A significand has 53 bits at most: 52 of the pattern and the leading one. -/
theorem Magnitude.significand_lt (bits : Nat) :
    (Magnitude.ofBits bits).significand < 2 * binade := by
  have fraction := Nat.mod_lt bits (show 0 < binade from two_pow_pos 52)
  unfold Magnitude.ofBits
  split
  · dsimp only
    omega
  · dsimp only
    omega

/-- The shift of a magnitude leaves 53 bits of its units, or fewer if there are
no more. So rounding the units to 53 bits finds the same shift again. -/
theorem Magnitude.log2_units (bits : Nat) :
    (Magnitude.ofBits bits).units.log2 - 52 = (Magnitude.ofBits bits).shift := by
  have bounded := Magnitude.significand_lt bits
  by_cases small : bits < binade
  · have parts : Magnitude.ofBits bits = { significand := bits, shift := 0 } := if_pos small
    rw [parts, Magnitude.units, Nat.pow_eq, Nat.pow_zero, Nat.mul_one]
    refine Nat.sub_eq_zero_of_le ?_
    by_cases zero : bits = 0
    · rw [zero]
      decide
    · exact Nat.le_of_lt ((Nat.log2_lt zero).mpr small)
  · have least : binade ≤ (Magnitude.ofBits bits).significand := by
      rw [Magnitude.ofBits, if_neg small]
      exact Nat.le_add_right _ _
    rw [Magnitude.units, Nat.pow_eq]
    generalize (Magnitude.ofBits bits).significand = significand at *
    generalize (Magnitude.ofBits bits).shift = places at *
    have lower : 2 ^ (52 + places) ≤ significand * 2 ^ places := by
      rw [Nat.pow_add]
      exact Nat.mul_le_mul_right _ least
    have upper : significand * 2 ^ places < 2 ^ (53 + places) := by
      rw [Nat.pow_add]
      exact Nat.mul_lt_mul_of_pos_right bounded (two_pow_pos places)
    have nonzero : significand * 2 ^ places ≠ 0 :=
      Nat.ne_of_gt (Nat.lt_of_lt_of_le (two_pow_pos _) lower)
    have least := (Nat.le_log2 nonzero).mpr lower
    have most := (Nat.log2_lt nonzero).mpr upper
    omega

/-- The double nearest to a finite double is this double. Its units are rounded
at the place where its significand ends (`Magnitude.log2_units`), and nothing
stands behind that place. -/
theorem nearestBits_units {bits : Nat} (finite : bits < infiniteBits) :
    nearestBits (Magnitude.ofBits bits).units unitsInOne = bits := by
  have unrounded : roundQuotient ((Magnitude.ofBits bits).units * unitsInOne)
      (unitsInOne * Nat.pow 2 (Magnitude.ofBits bits).shift) =
        (Magnitude.ofBits bits).significand := by
    rw [Nat.mul_comm unitsInOne, roundQuotient_mul_right _ _ _ unitsInOne_pos, Magnitude.units]
    exact roundQuotient_mul_self _ (two_pow_pos _)
  simp only [nearestBits, Nat.mul_div_cancel _ unitsInOne_pos, Magnitude.log2_units, unrounded]
  exact (congrArg (min · infiniteBits) (Magnitude.bits_ofBits bits)).trans
    (Nat.min_eq_left (Nat.le_of_lt finite))

/-- A quotient below half a unit has zero as its nearest double. The unit is the
least positive double. -/
theorem nearestBits_of_small {numerator denominator : Nat}
    (small : 2 * (numerator * unitsInOne) < denominator) :
    nearestBits numerator denominator = 0 := by
  have below : numerator * unitsInOne < denominator := by omega
  simp only [nearestBits, Nat.div_eq_of_lt below, Nat.log2_zero, Nat.zero_sub, Nat.pow_eq,
    Nat.pow_zero, Nat.mul_one, roundQuotient_of_lt small, Magnitude.bits, Nat.zero_mul,
    Nat.add_zero, Nat.zero_min]

/-- A quotient of 2¹⁰²⁵ or more has infinity as its nearest double. The largest
double is below 2¹⁰²⁴, so rounding does not bring such a quotient back. -/
theorem nearestBits_of_great {numerator denominator limit : Nat} (positive : 0 < denominator)
    (size : Nat.pow 2 1025 ≤ limit) (great : limit * denominator ≤ numerator) :
    nearestBits numerator denominator = infiniteBits := by
  obtain ⟨top, least, product⟩ : ∃ top, 2047 + 52 ≤ top ∧
      Nat.pow 2 top = Nat.pow 2 1025 * unitsInOne := ⟨2099, by decide, by decide +kernel⟩
  generalize Nat.pow 2 1025 = bound at size product
  have units : Nat.pow 2 top ≤ numerator * unitsInOne / denominator := by
    rw [product, Nat.le_div_iff_mul_le positive, Nat.mul_right_comm]
    exact Nat.mul_le_mul_right _ (Nat.le_trans (Nat.mul_le_mul_right _ size) great)
  have nonzero : numerator * unitsInOne / denominator ≠ 0 :=
    Nat.ne_of_gt (Nat.lt_of_lt_of_le (two_pow_pos top) units)
  have shift := Nat.le_trans least ((Nat.le_log2 nonzero).mpr units)
  refine Nat.min_eq_right (Nat.le_trans ?_ (Nat.le_add_right _ _))
  exact Nat.mul_le_mul_right _ (Nat.le_sub_of_add_le shift)

/-- Just beyond the reach, a power of ten exceeds every double, and its inverse
is at most half a unit. -/
theorem exists_far_power : ∃ far, far = decimalReach + 1 ∧
    2 * unitsInOne ≤ Nat.pow 10 far ∧ Nat.pow 2 1025 ≤ Nat.pow 10 far :=
  ⟨401, rfl, by decide +kernel, by decide +kernel⟩

/-- A decimal whose power of ten is above the reach has infinity as its nearest
double, unless it is zero. -/
theorem nearestBits_of_above {coefficient raised lowered : Nat} (nonzero : coefficient ≠ 0)
    (great : decimalReach + lowered < raised) :
    nearestBits (coefficient * Nat.pow 10 raised) (Nat.pow 10 lowered) = infiniteBits := by
  -- The power is named, so that no step writes it out.
  obtain ⟨far, distance, _, huge⟩ := exists_far_power
  obtain ⟨excess, rfl⟩ : ∃ excess, raised = excess + far + lowered :=
    ⟨raised - lowered - far, by omega⟩
  have least : Nat.pow 10 far ≤ coefficient * Nat.pow 10 (excess + far) :=
    Nat.le_trans (Nat.pow_le_pow_right (by decide) (Nat.le_add_left _ _))
      (Nat.le_mul_of_pos_left _ (Nat.pos_of_ne_zero nonzero))
  refine nearestBits_of_great (ten_pow_pos lowered) (Nat.le_trans huge least) (Nat.le_of_eq ?_)
  simp only [Nat.pow_eq, Nat.pow_add, Nat.mul_assoc]

/-- A decimal below the reach, even with all digits of its coefficient before
the point, has zero as its nearest double. -/
theorem nearestBits_of_below {coefficient raised lowered : Nat}
    (small : raised + (coefficient.log2 + 1) + decimalReach < lowered) :
    nearestBits (coefficient * Nat.pow 10 raised) (Nat.pow 10 lowered) = 0 := by
  obtain ⟨far, distance, tiny, _⟩ := exists_far_power
  obtain ⟨excess, rfl⟩ : ∃ excess, lowered = excess + far + (coefficient.log2 + 1) + raised :=
    ⟨lowered - raised - (coefficient.log2 + 1) - far, by omega⟩
  have size : coefficient < Nat.pow 10 (coefficient.log2 + 1) :=
    Nat.lt_of_lt_of_le Nat.lt_log2_self (Nat.pow_le_pow_left (by decide) _)
  apply nearestBits_of_small
  calc 2 * (coefficient * Nat.pow 10 raised * unitsInOne)
      = 2 * unitsInOne * coefficient * Nat.pow 10 raised := by
        rw [Nat.mul_right_comm coefficient, ← Nat.mul_assoc, ← Nat.mul_assoc,
          Nat.mul_right_comm 2]
    _ < Nat.pow 10 (excess + far) * Nat.pow 10 (coefficient.log2 + 1) * Nat.pow 10 raised := by
        refine Nat.mul_lt_mul_of_pos_right ?_ (ten_pow_pos raised)
        refine Nat.mul_lt_mul_of_le_of_lt (Nat.le_trans tiny ?_) size (ten_pow_pos _)
        exact Nat.pow_le_pow_right (by decide) (Nat.le_add_left _ _)
    _ = Nat.pow 10 (excess + far + (coefficient.log2 + 1) + raised) := by
        simp only [Nat.pow_eq, Nat.pow_add]

/-- The shortcuts for powers of ten beyond reach do not show in the result:
beyond them the nearest double is zero or infinity anyway. -/
theorem scientificBits_eq (coefficient raised lowered : Nat) :
    scientificBits coefficient ((raised : Int) - lowered) =
      nearestBits (coefficient * Nat.pow 10 raised) (Nat.pow 10 lowered) := by
  unfold scientificBits
  split
  · rename_i zero
    rw [zero, Nat.zero_mul, nearestBits_of_small]
    rw [Nat.zero_mul]
    exact ten_pow_pos lowered
  · rename_i nonzero
    split
    · rename_i great
      exact (nearestBits_of_above nonzero (by omega)).symm
    · split
      · rename_i small
        exact (nearestBits_of_below (by omega)).symm
      · split
        · rename_i places exponent
          obtain rfl : raised = places + lowered := by
            rw [Int.ofNat_eq_natCast] at exponent
            omega
          have factored : coefficient * Nat.pow 10 (places + lowered) =
              coefficient * Nat.pow 10 places * Nat.pow 10 lowered := by
            simp only [Nat.pow_eq, Nat.pow_add, Nat.mul_assoc]
          rw [factored, ← nearestBits_mul_right _ 1 _ (ten_pow_pos lowered), Nat.one_mul]
        · rename_i places exponent
          obtain rfl : lowered = places + 1 + raised := by
            rw [Int.negSucc_eq] at exponent
            omega
          have factored : Nat.pow 10 (places + 1 + raised) =
              Nat.pow 10 (places + 1) * Nat.pow 10 raised := by
            simp only [Nat.pow_eq, Nat.pow_add]
          rw [factored, nearestBits_mul_right _ _ _ (ten_pow_pos raised)]

end Reckon.Double
