import Reckon.Decimal

/-!
# The texts of plain decimals

A plain decimal is described here without the reader: a text over the ten digits
and the point, with at most one point and at least one digit.
`isSome_ofChars?_iff` says that the reader accepts exactly these texts, so
whatever is said of accepted numbers can be said of their characters.
-/

namespace Reckon.Decimal

/-- A plain decimal consists of digits and at most one point, and has a digit.
The point may stand at either end. -/
def IsPlain (text : List Char) : Prop :=
  (∀ c ∈ text, c.isDigit ∨ c = '.') ∧ text.count '.' ≤ 1 ∧ ∃ c ∈ text, c.isDigit

instance (text : List Char) : Decidable (IsPlain text) :=
  decidable_of_iff
    ((text.all fun c => c.isDigit || c == '.') ∧ text.count '.' ≤ 1 ∧ text.any Char.isDigit)
    (by simp [IsPlain])

theorem count_point_of_digits (text : List Char) (digits : ∀ c ∈ text, c.isDigit = true) :
    text.count '.' = 0 := by
  apply List.count_eq_zero.mpr
  intro point
  exact absurd (digits '.' point) (by decide)

/-- Digits alone are plain as soon as there is one; the empty text is the only
one of them that is not. -/
theorem isPlain_digits_iff (text : List Char) (digits : ∀ c ∈ text, c.isDigit = true) :
    IsPlain text ↔ text ≠ [] := by
  constructor
  · rintro ⟨_, _, c, present, _⟩ rfl
    exact List.not_mem_nil present
  · intro written
    obtain ⟨c, present⟩ := List.exists_mem_of_ne_nil text written
    refine ⟨fun d member => .inl (digits d member), ?_, c, present, digits c present⟩
    rw [count_point_of_digits text digits]
    exact Nat.zero_le 1

/-- A text that goes on after its leading digits is plain exactly when it goes
on with the point and nothing but digits follow, one digit standing on some side
of the point. The right side is what the reader tests. -/
theorem isPlain_append_cons_iff (whole fraction : List Char) (mark : Char)
    (digits : ∀ c ∈ whole, c.isDigit = true) (stop : mark.isDigit = false) :
    IsPlain (whole ++ mark :: fraction) ↔
      mark = '.' ∧ fraction.all Char.isDigit = true ∧ ¬(whole ++ fraction).isEmpty = true := by
  have pointless := count_point_of_digits whole digits
  constructor
  · rintro ⟨characters, points, c, present, digit⟩
    have point : mark = '.' := by simpa [stop] using characters mark (by simp)
    subst point
    have rest : fraction.count '.' = 0 := by
      simp only [List.count_append, List.count_cons_self, pointless] at points
      omega
    have after : ∀ d ∈ fraction, d.isDigit = true := by
      intro d member
      rcases characters d (by simp [member]) with isDigit | isPoint
      · exact isDigit
      · exact absurd (isPoint ▸ member) (List.count_eq_zero.mp rest)
    refine ⟨rfl, List.all_eq_true.mpr after, ?_⟩
    intro nothing
    obtain ⟨rfl, rfl⟩ := List.append_eq_nil_iff.mp (List.isEmpty_iff.mp nothing)
    obtain rfl : c = '.' := by simpa using present
    exact absurd digit (by decide)
  · rintro ⟨rfl, after, written⟩
    have fractionDigits := List.all_eq_true.mp after
    obtain ⟨c, present⟩ := List.exists_mem_of_ne_nil (whole ++ fraction) (by simpa using written)
    refine ⟨?_, ?_, c, ?_, ?_⟩
    · intro d member
      rcases List.mem_append.mp member with before | behind
      · exact .inl (digits d before)
      · rcases List.mem_cons.mp behind with rfl | later
        · exact .inr rfl
        · exact .inl (fractionDigits d later)
    · simp [List.count_append, pointless, count_point_of_digits fraction fractionDigits]
    · rcases List.mem_append.mp present with before | behind <;> simp [*]
    · rcases List.mem_append.mp present with before | behind
      · exact digits c before
      · exact fractionDigits c behind

/-- The reader accepts exactly the plain decimals. It cuts the text behind its
leading digits, and the two cases of the cut are those of the two lemmas
above. -/
theorem isSome_ofChars?_iff (text : List Char) : (ofChars? text).isSome = true ↔ IsPlain text := by
  have split := @List.takeWhile_append_dropWhile _ Char.isDigit text
  have digits : ∀ c ∈ text.takeWhile Char.isDigit, c.isDigit = true :=
    fun c member => List.all_eq_true.mp List.all_takeWhile c member
  unfold ofChars?
  simp only
  split
  · rename_i ended
    rw [ended, List.append_nil] at split
    rw [split] at digits ⊢
    rw [isPlain_digits_iff text digits]
    cases text <;> simp
  · rename_i mark fraction remaining
    have stop : mark.isDigit = false := by
      have first := List.head?_dropWhile_not Char.isDigit text
      simpa [remaining] using first
    rw [remaining] at split
    rw [← split, isPlain_append_cons_iff _ fraction mark digits stop, split]
    split <;> simp_all

/-- A text that is not plain is refused, and no other. -/
theorem ofChars?_eq_none_iff (text : List Char) : ofChars? text = none ↔ ¬IsPlain text := by
  rw [← isSome_ofChars?_iff, Bool.not_eq_true, Option.isSome_eq_false_iff,
    Option.isNone_iff_eq_none]

end Reckon.Decimal
