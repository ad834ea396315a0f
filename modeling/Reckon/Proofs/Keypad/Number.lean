import Reckon.Proofs.Keypad.Display
import Reckon.Proofs.Text.Field

/-!
# The number at the end of an expression

The sign key acts on the number at the end of an expression. This is described
here without the way in which it is found: a number is made of digits of any
script and has at most one point, which stands before the last run of digits,
and no longer number ends the expression. One character decides that: the one
before the number is no digit, and no point either unless the number has one
already (`trailingNumber_iff`).

`splitNumber?` splits exactly this number off, and nothing if there is none. A
final line feed is left out of account. A search that tries one place of the
text after the other, from the left, for a number that reaches to the end finds
the same number (`firstNumber_iff`).
-/

namespace Reckon.Keypad

variable {typed head number : List Char} {c : Char}

/-! ## Numbers -/

/-- Digits of any script, with at most one point before the last run of them.
There may be no digits before the point, but there is at least one behind it. -/
def IsNumber (text : List Char) : Prop :=
  ∃ whole fraction : List Char, (∀ c ∈ whole ++ fraction, Text.isDigit c = true) ∧ fraction ≠ [] ∧
    (text = whole ++ fraction ∨ text = whole ++ '.' :: fraction)

/-- A text ends with a number, and with none that is longer. The head is what
stands before the number. -/
structure TrailingNumber (text head number : List Char) : Prop where
  parts : head ++ number = text
  isNumber : IsNumber number
  longest : ∀ before other, before ++ other = text → IsNumber other →
    other.length ≤ number.length

/-- The character before a number does not belong to it: it is no digit, and no
point unless the number has one already. -/
def Severs (head number : List Char) : Prop :=
  ∀ c ∈ head.getLast?, Text.isDigit c = false ∧ (c = '.' → '.' ∈ number)

/-- The point is no digit. -/
theorem not_isDigit_point : Text.isDigit '.' = false := by decide +kernel

/-- No operator is a digit or a point, and neither is an opening parenthesis. -/
theorem not_isDigit_of_operator (marked : c ∈ operatorKeys ∨ c = '(') :
    Text.isDigit c = false ∧ c ≠ '.' := by
  have apart : (('(' :: operatorKeys).all fun c => !Text.isDigit c && c != '.') = true := by
    decide +kernel
  simpa using List.all_eq_true.mp apart c (List.mem_cons.mpr marked.symm)

namespace IsNumber

theorem digit_or_point (numeric : IsNumber number) (member : c ∈ number) :
    Text.isDigit c = true ∨ c = '.' := by
  obtain ⟨whole, fraction, digits, _, rfl | rfl⟩ := numeric
  · exact .inl (digits c member)
  · rcases List.mem_append.mp member with before | behind
    · exact .inl (digits c (List.mem_append_left fraction before))
    · rcases List.mem_cons.mp behind with point | after
      · exact .inr point
      · exact .inl (digits c (List.mem_append_right whole after))

theorem point_notMem_of_digits {digits : List Char} (all : ∀ c ∈ digits, Text.isDigit c = true) :
    '.' ∉ digits := by
  intro member
  cases not_isDigit_point.symm.trans (all '.' member)

/-- No operator is part of a number, so a minus sign always ends the number
behind it. -/
theorem notMem_operatorKeys (numeric : IsNumber number) : ∀ c ∈ number, c ∉ operatorKeys := by
  intro c member operator
  obtain ⟨undigit, unpointed⟩ := not_isDigit_of_operator (.inl operator)
  rcases numeric.digit_or_point member with digit | point
  · cases undigit.symm.trans digit
  · exact unpointed point

/-- A number has at most one point. -/
theorem count_point_le (numeric : IsNumber number) : number.count '.' ≤ 1 := by
  obtain ⟨whole, fraction, digits, _, parts⟩ := numeric
  have pointless := List.count_eq_zero_of_not_mem (point_notMem_of_digits digits)
  rw [List.count_append] at pointless
  rcases parts with rfl | rfl
  · rw [List.count_append]
    omega
  · rw [List.count_append, List.count_cons_self]
    omega

/-- A number ends with a digit. -/
theorem getLast?_eq (numeric : IsNumber number) :
    ∃ last, number.getLast? = some last ∧ Text.isDigit last = true := by
  obtain ⟨whole, fraction, digits, nonempty, parts⟩ := numeric
  have last := digits _ (List.mem_append_right whole (List.getLast_mem nonempty))
  refine ⟨fraction.getLast nonempty, ?_, last⟩
  rcases parts with rfl | rfl <;>
    simp [List.getLast?_append, List.getLast?_cons, List.getLast?_eq_some_getLast nonempty]

end IsNumber

/-- A number is the longest at the end if and only if the character before it
does not belong to it. One step to the left decides: a longer number would have
that character in it, and then it could be put in front of this number as
well. -/
theorem trailingNumber_iff {text : List Char} :
    TrailingNumber text head number ↔ head ++ number = text ∧ IsNumber number ∧
      Severs head number := by
  constructor
  · rintro ⟨parts, numeric, longest⟩
    refine ⟨parts, numeric, ?_⟩
    intro c last
    obtain ⟨before, rfl⟩ := List.getLast?_eq_some_iff.mp last
    have longer : ¬IsNumber (c :: number) := by
      intro more
      have bound := longest before (c :: number) (by rw [← parts, List.append_cons]) more
      rw [List.length_cons] at bound
      omega
    obtain ⟨whole, fraction, digits, nonempty, written⟩ := numeric
    constructor
    · refine Bool.eq_false_iff.mpr fun digit => longer ⟨c :: whole, fraction, ?_, nonempty, ?_⟩
      · intro d member
        rcases List.mem_cons.mp member with rfl | other
        · exact digit
        · exact digits d other
      · rcases written with rfl | rfl
        · exact .inl rfl
        · exact .inr rfl
    · rintro rfl
      rcases written with rfl | rfl
      · refine absurd ⟨[], whole ++ fraction, digits, ?_, .inr rfl⟩ longer
        exact List.append_ne_nil_of_right_ne_nil whole nonempty
      · simp
  · rintro ⟨parts, numeric, severed⟩
    refine ⟨parts, numeric, ?_⟩
    intro before other same otherNumeric
    rcases List.append_eq_append_iff.mp (same.trans parts.symm) with
      ⟨middle, rfl, rfl⟩ | ⟨rest, _, rfl⟩
    · -- The other number reaches beyond this one only if it takes the character before it.
      cases middle using List.reverseRecOn with
      | nil => exact Nat.le_refl _
      | append_singleton earlier c =>
        obtain ⟨undigit, point⟩ := severed c (by simp)
        rcases otherNumeric.digit_or_point (c := c) (by simp) with digit | rfl
        · cases undigit.symm.trans digit
        · have twice := otherNumeric.count_point_le
          have within := List.one_le_count_iff.mpr (point rfl)
          simp only [List.count_append, List.count_singleton_self] at twice
          omega
    · rw [List.length_append]
      omega

/-! ## Splitting the number off -/

theorem dropFinalLineFeed_append (numeric : IsNumber number) (head : List Char) :
    dropFinalLineFeed (head ++ number) = head ++ number := by
  obtain ⟨last, ends, digit⟩ := numeric.getLast?_eq
  have unbroken : last ≠ '\n' := by
    rintro rfl
    exact absurd digit (by decide +kernel)
  rw [dropFinalLineFeed, if_neg (by simp [ends, unbroken])]

/-- Digits at the end are taken off together with the digits in front of their
point. The two cases are those of a number with a point and of one without. -/
theorem splitNumber?_of_parts (parts : head ++ number = dropFinalLineFeed typed)
    (numeric : IsNumber number) (severed : Severs head number) :
    splitNumber? typed = some (head, number) := by
  have back : ∀ c ∈ head.reverse.head?, Text.isDigit c = false := by
    intro c first
    exact (severed c (List.head?_reverse ▸ first)).1
  have mirror {digits : List Char} (all : ∀ c ∈ digits, Text.isDigit c = true) :
      ∀ c ∈ digits.reverse, Text.isDigit c = true :=
    fun c member => all c (List.mem_reverse.mp member)
  obtain ⟨whole, fraction, digits, nonempty, written⟩ := numeric
  rcases written with rfl | rfl
  · have pointless : head.reverse.head? ≠ some '.' := by
      intro point
      have inside := (severed '.' (List.head?_reverse ▸ point)).2 rfl
      exact IsNumber.point_notMem_of_digits digits inside
    obtain ⟨taken, left⟩ := Text.takeWhile_run (mirror digits) back
    have reversed : (dropFinalLineFeed typed).reverse =
        (whole ++ fraction).reverse ++ head.reverse := by
      rw [← parts, List.reverse_append]
    simp only [splitNumber?, reversed, taken, left]
    rw [if_neg (by simp [nonempty])]
    split
    · rename_i before starts
      exact absurd (by rw [starts]; rfl) pointless
    · simp
  · have first : ∀ c ∈ fraction, Text.isDigit c = true :=
      fun c member => digits c (List.mem_append_right whole member)
    have second : ∀ c ∈ whole, Text.isDigit c = true :=
      fun c member => digits c (List.mem_append_left fraction member)
    have point : ∀ c ∈ ('.' :: (whole.reverse ++ head.reverse)).head?, Text.isDigit c = false := by
      simp [not_isDigit_point]
    obtain ⟨taken, left⟩ := Text.takeWhile_run (mirror first) point
    obtain ⟨takenBefore, leftBefore⟩ := Text.takeWhile_run (mirror second) back
    have reversed : (dropFinalLineFeed typed).reverse =
        fraction.reverse ++ '.' :: (whole.reverse ++ head.reverse) := by
      rw [← parts]
      simp
    simp only [splitNumber?, reversed, taken, left]
    rw [if_neg (by simp [nonempty])]
    simp only [takenBefore, leftBefore]
    simp

/-- What is split off is a number that ends where another character does not
belong to it. This reads the two runs of digits back from the reversed text. -/
theorem of_splitNumber? (split : splitNumber? typed = some (head, number)) :
    IsNumber number ∧ Severs head number := by
  have undigit (text : List Char) : ∀ c ∈ (text.dropWhile Text.isDigit).reverse.getLast?,
      Text.isDigit c = false := by
    intro c last
    rw [List.getLast?_reverse] at last
    have stops := List.head?_dropWhile_not Text.isDigit text
    rw [Option.mem_def.mp last] at stops
    simpa using stops
  have digits (text : List Char) : ∀ c ∈ text.takeWhile Text.isDigit, Text.isDigit c = true :=
    fun c member => List.mem_takeWhile_imp member
  simp only [splitNumber?] at split
  generalize (dropFinalLineFeed typed).reverse = reversed at split
  split at split
  · cases split
  · rename_i nonempty
    split at split
    · rename_i before point
      cases split
      constructor
      · refine ⟨(before.takeWhile Text.isDigit).reverse, (reversed.takeWhile Text.isDigit).reverse,
          ?_, by simpa using nonempty, .inr (by simp)⟩
        intro c member
        rcases List.mem_append.mp member with earlier | later
        · exact digits before c (List.mem_reverse.mp earlier)
        · exact digits reversed c (List.mem_reverse.mp later)
      · exact fun c last => ⟨undigit before c last, fun _ => by simp⟩
    · rename_i pointless
      cases split
      constructor
      · refine ⟨[], (reversed.takeWhile Text.isDigit).reverse, ?_, by simpa using nonempty,
          .inl rfl⟩
        exact fun c member => digits reversed c (List.mem_reverse.mp member)
      · refine fun c last => ⟨undigit reversed c last, ?_⟩
        rintro rfl
        rw [List.getLast?_reverse] at last
        obtain ⟨before, starts⟩ := List.head?_eq_some_iff.mp last
        exact absurd starts (pointless before)

/-- The number that is split off is the longest at the end, not counting a final
line feed. There is only one such number, so the two determine each other. -/
theorem splitNumber?_eq_some_iff :
    splitNumber? typed = some (head, number) ↔
      TrailingNumber (dropFinalLineFeed typed) head number := by
  rw [trailingNumber_iff]
  constructor
  · intro split
    exact ⟨append_of_splitNumber? split, of_splitNumber? split⟩
  · rintro ⟨parts, numeric, severed⟩
    exact splitNumber?_of_parts parts numeric severed

/-- Nothing is split off only if there is no number at the end. -/
theorem splitNumber?_eq_none_iff :
    splitNumber? typed = none ↔
      ∀ number, number <:+ dropFinalLineFeed typed → ¬IsNumber number := by
  constructor
  · rintro nothing number ⟨before, parts⟩ numeric
    obtain ⟨last, ends, digit⟩ := numeric.getLast?_eq
    have final : (dropFinalLineFeed typed).reverse.head? = some last := by
      simp [← parts, ends]
    obtain ⟨rest, reversed⟩ := List.head?_eq_some_iff.mp final
    simp only [splitNumber?, reversed, List.takeWhile_cons_of_pos digit] at nothing
    rw [if_neg (by simp)] at nothing
    split at nothing <;> cases nothing
  · intro none
    cases split : splitNumber? typed with
    | none => rfl
    | some parts =>
      obtain ⟨head, number⟩ := parts
      have trailing := splitNumber?_eq_some_iff.mp split
      exact absurd trailing.isNumber (none number ⟨head, trailing.parts⟩)

/-- A number that reaches to the end of a text, or to a line feed that ends it,
and none begins earlier. This is how a search from the left finds a number at
the end. -/
structure FirstNumber (text head number : List Char) : Prop where
  parts : ∃ rest, (rest = [] ∨ rest = ['\n']) ∧ head ++ number ++ rest = text
  isNumber : IsNumber number
  first : ∀ before other rest, (rest = [] ∨ rest = ['\n']) → before ++ other ++ rest = text →
    IsNumber other → head.length ≤ before.length

/-- A number reaches to the end of a text or to its final line feed if and only
if it ends the text without a final line feed. -/
theorem exists_rest_iff (numeric : IsNumber number) :
    (∃ rest, (rest = [] ∨ rest = ['\n']) ∧ head ++ number ++ rest = typed) ↔
      head ++ number = dropFinalLineFeed typed := by
  constructor
  · rintro ⟨rest, rfl | rfl, rfl⟩
    · rw [List.append_nil, dropFinalLineFeed_append numeric]
    · rw [dropFinalLineFeed, if_pos List.getLast?_concat, List.dropLast_concat]
  · intro parts
    rw [parts, dropFinalLineFeed]
    split
    · rename_i last
      exact ⟨['\n'], .inr rfl, List.dropLast_append_getLast? '\n' last⟩
    · exact ⟨[], .inl rfl, List.append_nil typed⟩

/-- The longest number at the end is the one that begins first, since all of
them reach to the same place. -/
theorem firstNumber_iff :
    FirstNumber typed head number ↔ TrailingNumber (dropFinalLineFeed typed) head number := by
  have shorter {before other : List Char} (same : before ++ other = head ++ number) :
      head.length ≤ before.length ↔ other.length ≤ number.length := by
    have size := congrArg List.length same
    rw [List.length_append, List.length_append] at size
    omega
  constructor
  · rintro ⟨parts, numeric, first⟩
    have whole := (exists_rest_iff numeric).mp parts
    refine ⟨whole, numeric, fun before other same otherNumeric => ?_⟩
    obtain ⟨rest, ends, split⟩ := (exists_rest_iff otherNumeric).mpr same
    exact (shorter (same.trans whole.symm)).mp (first before other rest ends split otherNumeric)
  · rintro ⟨whole, numeric, longest⟩
    refine ⟨(exists_rest_iff numeric).mpr whole, numeric, ?_⟩
    intro before other rest ends split otherNumeric
    have same := (exists_rest_iff otherNumeric).mp ⟨rest, ends, split⟩
    exact (shorter (same.trans whole.symm)).mpr (longest before other same otherNumeric)

end Reckon.Keypad
