import Mathlib.Data.Nat.Digits.Defs
import Reckon.Double.Shortest
import Reckon.Proofs.Double.Exact

/-!
# The shortest decimal reads back

Whatever grid the search for the shortest decimal ends on, the decimal found
reads back as the double: on a grid of its own accord, and at the expansion
because that is exact. The search does not go beyond the power of ten that
divides the expansion, since there the expansion is a point of the grid. This
bounds the number of digits: a double is never shown by more than `digitBound`
of them.
-/

namespace Reckon.Double

-- An expansion has hundreds of digits, which no proof is to write out.
attribute [local irreducible] unitsInOne expansionPlaces expansion

variable {bits : Nat}

/-- A decimal that is the expansion reads back as the double, since the
expansion is the exact value of the double in decimal units. -/
theorem readsBack_of_eq (finite : bits < infiniteBits) {coefficient power : Nat}
    (equal : coefficient * Nat.pow 10 power = expansion bits) :
    readsBack bits coefficient power = true := by
  have factors : Nat.pow 10 expansionPlaces = unitsInOne * Nat.pow 5 expansionPlaces := by
    decide +kernel
  have positive : 0 < Nat.pow 5 expansionPlaces := by decide +kernel
  unfold readsBack
  rw [beq_iff_eq, equal, expansion, factors, nearestBits_mul_right _ _ _ positive]
  exact nearestBits_units finite

theorem readsBack_expansion (finite : bits < infiniteBits) :
    readsBack bits (expansion bits) 0 = true :=
  readsBack_of_eq finite (Nat.mul_one _)

/-- A grid that contains the expansion has a point that reads back as the
double, namely the expansion. The search does not go beyond such a grid. -/
theorem gridPoint?_of_dvd (finite : bits < infiniteBits) {power : Nat}
    (divides : Nat.pow 10 power ∣ expansion bits) : (gridPoint? bits power).isSome = true := by
  obtain ⟨coefficient, product⟩ := divides
  rw [Nat.mul_comm] at product
  have found : readsBack bits (roundQuotient (expansion bits) (Nat.pow 10 power)) power = true := by
    rw [product, roundQuotient_mul_self _ (ten_pow_pos power)]
    exact readsBack_of_eq finite product.symm
  unfold gridPoint?
  simp only [found, if_true, Option.isSome_some]

/-- A point of a grid reads back as the double, and stands beside the expansion:
it is the point below it or the one above. -/
theorem of_gridPoint? {power coefficient : Nat} (found : gridPoint? bits power = some coefficient) :
    readsBack bits coefficient power = true ∧
      coefficient ≤ expansion bits / Nat.pow 10 power + 1 := by
  have nearer := roundQuotient_le (expansion bits) (Nat.pow 10 power)
  simp only [gridPoint?] at found
  generalize roundQuotient (expansion bits) (Nat.pow 10 power) = first at found nearer
  by_cases reads : readsBack bits first power = true
  · rw [if_pos reads] at found
    cases found
    exact ⟨reads, nearer⟩
  · rw [if_neg reads] at found
    generalize farther : (if first = expansion bits / Nat.pow 10 power then
      expansion bits / Nat.pow 10 power + 1 else expansion bits / Nat.pow 10 power) =
        second at found
    have beside : second ≤ expansion bits / Nat.pow 10 power + 1 := by
      rw [← farther]
      split
      · exact Nat.le_refl _
      · exact Nat.le_succ _
    obtain ⟨reads, same⟩ := Option.ite_none_right_eq_some.mp found
    cases same
    exact ⟨reads, beside⟩

/-! ## The search -/

section Search

variable {point? : Nat → Option Nat} {last power : Nat}

/-- What is found is a point of its grid, or the last one of the finest. In the
latter case no grid had a point. -/
theorem searchFrom_cases (point? : Nat → Option Nat) (last power : Nat) :
    point? (searchFrom point? last power).2 = some (searchFrom point? last power).1 ∨
      searchFrom point? last power = (last, 0) := by
  induction power with
  | zero => exact .inr rfl
  | succ power ih =>
    unfold searchFrom
    split
    · rename_i found
      exact .inl found
    · exact ih

/-- The search never ends on a coarser grid than the one it starts on. -/
theorem power_searchFrom_le : (searchFrom point? last power).2 ≤ power := by
  induction power with
  | zero => exact Nat.le_refl _
  | succ power ih =>
    unfold searchFrom
    split
    · exact Nat.le_refl _
    · exact Nat.le_succ_of_le ih

/-- The search does not go beyond a grid with a point. -/
theorem le_power_searchFrom {least : Nat} (found : (point? least).isSome = true)
    (bound : least ≤ power) : least ≤ (searchFrom point? last power).2 := by
  induction power with
  | zero => exact bound
  | succ power ih =>
    unfold searchFrom
    split
    · exact bound
    · rename_i missing
      refine ih (Nat.le_of_lt_succ (Nat.lt_of_le_of_ne bound ?_))
      rintro rfl
      cases (congrArg Option.isSome missing).symm.trans found

end Search

/-- The shortest decimal reads back as the double, and stands beside the
expansion. -/
theorem of_shortest (finite : bits < infiniteBits) :
    readsBack bits (shortest bits).1 (shortest bits).2 = true ∧
      (shortest bits).1 ≤ expansion bits / Nat.pow 10 (shortest bits).2 + 1 := by
  unfold shortest
  generalize (Nat.toDigits 10 (expansion bits)).length - 1 = power
  rcases searchFrom_cases (gridPoint? bits) (expansion bits) power with found | last
  · exact of_gridPoint? found
  · rw [last, Nat.pow_eq, Nat.pow_zero, Nat.div_one]
    exact ⟨readsBack_expansion finite, Nat.le_succ _⟩

/-- Zero reads back as zero only: the double nearest to it is zero. -/
theorem pos_of_readsBack {coefficient power : Nat} (reads : readsBack bits coefficient power = true)
    (nonzero : bits ≠ 0) : 0 < coefficient := by
  refine Nat.pos_of_ne_zero fun zero => nonzero ?_
  rw [readsBack, zero, Nat.zero_mul, beq_iff_eq] at reads
  rw [← reads]
  refine nearestBits_of_small ?_
  rw [Nat.zero_mul]
  exact ten_pow_pos _

/-! ## The number of digits -/

/-- More digits than this are never needed. Seventeen would do, but this bound
follows from the length of the exact expansion alone. -/
def digitBound : Nat := 768

/-- The final zeros of an expansion that come from the shift. Every factor two
of the shift meets a factor five of the places behind the point. -/
def finalZeros (bits : Nat) : Nat :=
  min (Magnitude.ofBits bits).shift expansionPlaces

attribute [local irreducible] digitBound

/-- An expansion is divisible by the power of ten that the shift and the fives
make up. -/
theorem pow_finalZeros_dvd (bits : Nat) : Nat.pow 10 (finalZeros bits) ∣ expansion bits := by
  have twos : Nat.pow 2 (finalZeros bits) ∣ (Magnitude.ofBits bits).units :=
    Nat.dvd_mul_left_of_dvd (Nat.pow_dvd_pow 2 (Nat.min_le_left _ _)) _
  have fives : Nat.pow 5 (finalZeros bits) ∣ Nat.pow 5 expansionPlaces :=
    Nat.pow_dvd_pow 5 (Nat.min_le_right _ _)
  have factors : Nat.pow 10 (finalZeros bits) =
      Nat.pow 2 (finalZeros bits) * Nat.pow 5 (finalZeros bits) := Nat.mul_pow 2 5 _
  rw [factors, expansion]
  exact Nat.mul_dvd_mul twos fives

/-- The shift of a finite double is bounded by that of the largest one. -/
theorem shift_le (finite : bits < infiniteBits) :
    (Magnitude.ofBits bits).shift ≤ 971 + expansionPlaces := by
  have binades : bits / binade < 2047 := Nat.div_lt_of_lt_mul (Nat.mul_comm _ _ ▸ finite)
  have places : 971 + expansionPlaces = 2045 := by decide +kernel
  unfold Magnitude.ofBits
  split
  · exact Nat.zero_le _
  · rw [places]
    dsimp only
    omega

/-- Without these zeros an expansion has fewer digits than the bound. A large
shift makes the expansion long, but then its zeros are many as well. -/
theorem expansion_lt (finite : bits < infiniteBits) :
    expansion bits < Nat.pow 10 (digitBound - 1) * Nat.pow 10 (finalZeros bits) := by
  have bounded := Magnitude.significand_lt bits
  obtain ⟨span, shift, twos⟩ : ∃ span, (Magnitude.ofBits bits).shift ≤ span + expansionPlaces ∧
      2 * binade * Nat.pow 2 span ≤ Nat.pow 10 (digitBound - 1) :=
    ⟨971, shift_le finite, by decide +kernel⟩
  have fives : 2 * binade * Nat.pow 5 expansionPlaces ≤ Nat.pow 10 (digitBound - 1) := by
    decide +kernel
  have tens (power : Nat) : Nat.pow 10 power = Nat.pow 2 power * Nat.pow 5 power :=
    Nat.mul_pow 2 5 power
  have positive : 0 < Nat.pow 5 expansionPlaces := by decide +kernel
  unfold expansion finalZeros Magnitude.units
  generalize Nat.pow 10 (digitBound - 1) = limit at *
  generalize (Magnitude.ofBits bits).significand = significand at *
  generalize (Magnitude.ofBits bits).shift = places at *
  generalize expansionPlaces = all at *
  generalize 2 * binade = most at *
  rcases Nat.le_total places all with few | many
  · rw [Nat.min_eq_left few]
    calc significand * Nat.pow 2 places * Nat.pow 5 all
        = significand * Nat.pow 5 all * Nat.pow 2 places := Nat.mul_right_comm _ _ _
      _ < limit * Nat.pow 2 places :=
          Nat.mul_lt_mul_of_pos_right
            (Nat.lt_of_lt_of_le (Nat.mul_lt_mul_of_pos_right bounded positive) fives)
            (two_pow_pos places)
      _ ≤ limit * Nat.pow 10 places :=
          Nat.mul_le_mul_left _ (Nat.pow_le_pow_left (by decide) places)
  · obtain ⟨rest, rfl⟩ := Nat.exists_eq_add_of_le many
    have few : Nat.pow 2 rest ≤ Nat.pow 2 span := Nat.pow_le_pow_right (by decide) (by omega)
    have product : Nat.pow 2 (all + rest) = Nat.pow 2 all * Nat.pow 2 rest := Nat.pow_add 2 all rest
    rw [Nat.min_eq_right many, product, tens]
    calc significand * (Nat.pow 2 all * Nat.pow 2 rest) * Nat.pow 5 all
        = significand * Nat.pow 2 rest * (Nat.pow 2 all * Nat.pow 5 all) := by
          rw [Nat.mul_comm (Nat.pow 2 all) (Nat.pow 2 rest), ← Nat.mul_assoc, Nat.mul_assoc]
      _ < limit * (Nat.pow 2 all * Nat.pow 5 all) := by
          refine Nat.mul_lt_mul_of_pos_right ?_ (Nat.mul_pos (two_pow_pos all) positive)
          refine Nat.lt_of_lt_of_le (Nat.mul_lt_mul_of_pos_right bounded (two_pow_pos rest)) ?_
          exact Nat.le_trans (Nat.mul_le_mul_left _ few) twos

/-- The search starts at a grid no finer than the one that the final zeros make
up. -/
theorem finalZeros_lt (finite : bits < infiniteBits) (nonzero : bits ≠ 0) :
    finalZeros bits < (Nat.toDigits 10 (expansion bits)).length := by
  have positive : 0 < expansion bits :=
    pos_of_readsBack (readsBack_expansion finite) nonzero
  have least := Nat.le_of_dvd positive (pow_finalZeros_dvd bits)
  rcases Nat.eq_zero_or_pos (finalZeros bits) with none | some
  · rw [none]
    exact Nat.length_toDigits_pos
  · exact Nat.lt_of_not_le fun few =>
      Nat.not_lt_of_le least ((Nat.length_toDigits_le_iff (by decide) some).mp few)

/-- The shortest decimal does not have more digits than the bound. It stands
beside the expansion on a grid that is at least as coarse as the final zeros. -/
theorem length_shortest_le (finite : bits < infiniteBits) (nonzero : bits ≠ 0) :
    (Nat.toDigits 10 (shortest bits).1).length ≤ digitBound := by
  have positive : 0 < digitBound := by decide +kernel
  have beyond : finalZeros bits ≤ (shortest bits).2 :=
    le_power_searchFrom (gridPoint?_of_dvd finite (pow_finalZeros_dvd bits))
      (Nat.le_sub_one_of_lt (finalZeros_lt finite nonzero))
  have whole : expansion bits / Nat.pow 10 (shortest bits).2 < Nat.pow 10 (digitBound - 1) := by
    refine Nat.lt_of_le_of_lt (Nat.div_le_div_left ?_ (ten_pow_pos _))
      (Nat.div_lt_of_lt_mul (Nat.mul_comm _ _ ▸ expansion_lt finite))
    exact Nat.pow_le_pow_right (by decide) beyond
  rw [Nat.length_toDigits_le_iff (by decide) positive]
  calc (shortest bits).1
      ≤ expansion bits / Nat.pow 10 (shortest bits).2 + 1 := (of_shortest finite).2
    _ ≤ 10 ^ (digitBound - 1) := whole
    _ < 10 ^ digitBound := Nat.pow_lt_pow_right (by decide) (Nat.sub_one_lt_of_lt positive)

/-- The power of the shortest decimal is bounded, too. The search starts at a
grid given by the number of digits of the expansion, and goes on to finer
ones. -/
theorem power_shortest_lt (finite : bits < infiniteBits) :
    (shortest bits).2 < digitBound + expansionPlaces := by
  have positive : 0 < digitBound := by decide +kernel
  have zeros : finalZeros bits ≤ expansionPlaces := Nat.min_le_right _ _
  have size : expansion bits < 10 ^ (digitBound + expansionPlaces) := by
    refine Nat.lt_of_lt_of_le (expansion_lt finite) ?_
    rw [Nat.pow_eq, Nat.pow_eq, ← Nat.pow_add]
    exact Nat.pow_le_pow_right (by decide) (by omega)
  have length := (Nat.length_toDigits_le_iff (by decide) (by omega)).mpr size
  have start : (shortest bits).2 ≤ (Nat.toDigits 10 (expansion bits)).length - 1 :=
    power_searchFrom_le
  omega

end Reckon.Double
