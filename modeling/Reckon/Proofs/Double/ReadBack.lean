import Reckon.Double.Layout
import Reckon.Numeral
import Reckon.Proofs.Double.Bits
import Reckon.Proofs.Double.Shortest
import Reckon.Proofs.Text.Field

/-!
# A double is read back from its text

The text that shows a double reads as this double again. The layouts of a
decimal differ in where they put the point and whether they write the exponent
out, but each of them is read as the same number: `scientific?_write`. That
number is the shortest decimal of the double without its final zeros, which
reads back by `scientificBits_of_readsBack`.
-/

namespace Reckon

/-! ## The value of digits -/

namespace Decimal

/-- Further digits move the value up and add their own. With this equation the
value of any layout is computed from its parts. -/
theorem valueOf_append (first second : List Char) :
    valueOf (first ++ second) = valueOf first * Nat.pow 10 second.length + valueOf second := by
  have value (digits : List Char) : valueOf digits = Nat.ofDigitChars 10 digits 0 := rfl
  rw [value, Nat.ofDigitChars_append, Nat.ofDigitChars_eq_ofDigitChars_zero, Nat.mul_comm]
  rfl

theorem valueOf_zeros (count : Nat) : valueOf (List.replicate count '0') = 0 :=
  Nat.ofDigitChars_replicate_zero

theorem valueOf_toDigits (number : Nat) : valueOf (Nat.toDigits 10 number) = number :=
  Nat.ofDigitChars_ten_toDigits

end Decimal

/-! ## Reading a layout -/

namespace Numeral

open Decimal Double

/-- What follows the digits is not taken for one of them, so that the run of
digits ends there. -/
def Ends (tail : List Char) : Prop :=
  ∀ c ∈ tail.head?, c.isDigit = false

/-- Digits on both sides of a point are read as a decimal with as many places as
there are behind. One of the sides may be empty. -/
theorem scientific?_point (whole fraction tail : List Char)
    (before : ∀ c ∈ whole, c.isDigit = true) (behind : ∀ c ∈ fraction, c.isDigit = true)
    (nonempty : whole ++ fraction ≠ []) (ends : Ends tail) :
    scientific? (whole ++ '.' :: (fraction ++ tail)) = (exponent? tail).map fun power =>
      scientificBits (valueOf (whole ++ fraction)) (power - fraction.length) := by
  have point : Ends ('.' :: (fraction ++ tail)) := by simp [Ends]
  obtain ⟨taken, left⟩ := Text.takeWhile_run before point
  obtain ⟨takenBehind, leftBehind⟩ := Text.takeWhile_run behind ends
  simp [scientific?, taken, left, takenBehind, leftBehind, nonempty]

/-- Digits without a point are read as a whole number. -/
theorem scientific?_whole {whole tail : List Char} (before : ∀ c ∈ whole, c.isDigit = true)
    (nonempty : whole ≠ []) (ends : Ends tail) (pointless : tail.head? ≠ some '.') :
    scientific? (whole ++ tail) =
      (exponent? tail).map fun power => scientificBits (valueOf whole) power := by
  obtain ⟨taken, left⟩ := Text.takeWhile_run before ends
  simp [scientific?, taken, left, pointless, nonempty]

theorem isDigit_of_mem_zeros {count : Nat} : ∀ c ∈ List.replicate count '0', c.isDigit = true := by
  intro c member
  rw [List.eq_of_mem_replicate member]
  rfl

theorem isDigit_of_mem_fillLeft {width number : Nat} :
    ∀ c ∈ fillLeft width (Nat.toDigits 10 number), c.isDigit = true := by
  intro c member
  rcases List.mem_append.mp member with zero | digit
  · exact isDigit_of_mem_zeros c zero
  · exact Nat.isDigit_of_mem_toDigits (by decide) (by decide) digit

/-- A power of ten that is written out is read as itself, whatever the width to
which its digits are filled up. -/
theorem exponent?_written (width : Nat) (exponent : Int) :
    exponent? ('e' :: (if exponent < 0 then '-' else '+') ::
      fillLeft width (Nat.toDigits 10 exponent.natAbs)) = some exponent := by
  have nonempty : fillLeft width (Nat.toDigits 10 exponent.natAbs) ≠ [] := by
    simp [fillLeft, Nat.toDigits_ne_nil]
  have value : valueOf (fillLeft width (Nat.toDigits 10 exponent.natAbs)) = exponent.natAbs := by
    rw [fillLeft, valueOf_append, valueOf_zeros, Nat.zero_mul, Nat.zero_add, valueOf_toDigits]
  have all : (fillLeft width (Nat.toDigits 10 exponent.natAbs)).all Char.isDigit = true :=
    List.all_eq_true.mpr isDigit_of_mem_fillLeft
  have letter : Char.toLower 'e' = 'e' := by decide
  by_cases negative : exponent < 0
  · simp [exponent?, splitSign, negative, all, nonempty, value, letter, -Nat.cast_natAbs]
    omega
  · simp [exponent?, splitSign, negative, all, nonempty, value, letter, -Nat.cast_natAbs]
    omega

/-- Zeros at the end of a decimal change the power of ten only. The quotient is
the same, and so is the double nearest to it. -/
theorem scientificBits_pad (coefficient zeros : Nat) (power : Int) :
    scientificBits (coefficient * Nat.pow 10 zeros) (power - zeros) =
      scientificBits coefficient power := by
  obtain ⟨raised, lowered, rfl⟩ : ∃ raised lowered : Nat, power = raised - lowered :=
    ⟨power.toNat, (-power).toNat, by omega⟩
  have lower : ((raised : Int) - lowered) - zeros = raised - (lowered + zeros : Nat) := by omega
  have factors : Nat.pow 10 (lowered + zeros) = Nat.pow 10 lowered * Nat.pow 10 zeros :=
    Nat.pow_add 10 lowered zeros
  rw [lower, scientificBits_eq, scientificBits_eq, Nat.mul_right_comm, factors]
  exact nearestBits_mul_right _ _ _ (ten_pow_pos zeros)

section Write

variable {digits : List Char} (all : ∀ c ∈ digits, c.isDigit = true) (nonempty : digits ≠ [])

include all nonempty

/-- A point among the digits is read where it stands. This is the first of the
four layouts of a decimal. -/
theorem scientific?_among {places : Nat} (longer : places + 1 < digits.length) :
    scientific? (digits.take (places + 1) ++ '.' :: digits.drop (places + 1)) =
      some (scientificBits (valueOf digits) ((places : Int) + 1 - digits.length)) := by
  have read := scientific?_point _ _ [] (fun c member => all c (List.mem_of_mem_take member))
    (fun c member => all c (List.mem_of_mem_drop member))
    (by rwa [List.take_append_drop places.succ]) (by simp [Ends])
  rw [List.append_nil] at read
  rw [read, List.take_append_drop, List.length_drop]
  have power : (0 : Int) - ((digits.length - (places + 1) : Nat) : Int) =
      (places : Int) + 1 - digits.length := by omega
  exact congrArg (fun power => some (scientificBits (valueOf digits) power)) power

/-- Zeros up to a point behind the digits move their value up, and the zero
behind the point is one place more. -/
theorem scientific?_behind {places : Nat} (shorter : digits.length ≤ places + 1) :
    scientific? (digits ++ List.replicate (places + 1 - digits.length) '0' ++ ['.', '0']) =
      some (scientificBits (valueOf digits) ((places : Int) + 1 - digits.length)) := by
  have before : ∀ c ∈ digits ++ List.replicate (places + 1 - digits.length) '0',
      c.isDigit = true := by
    intro c member
    rcases List.mem_append.mp member with digit | zero
    · exact all c digit
    · exact isDigit_of_mem_zeros c zero
  have read := scientific?_point _ ['0'] [] before (by simp)
    (by simp [nonempty]) (by simp [Ends])
  have value : valueOf (digits ++ List.replicate (places + 1 - digits.length) '0' ++ ['0']) =
      valueOf digits * Nat.pow 10 (places + 1 - digits.length + 1) := by
    rw [List.append_assoc, ← List.replicate_succ', valueOf_append, valueOf_zeros, Nat.add_zero,
      List.length_replicate]
  refine read.trans (congrArg some ?_)
  rw [value, ← scientificBits_pad (valueOf digits) (places + 1 - digits.length + 1)]
  refine congrArg (scientificBits _) ?_
  rw [List.length_singleton]
  omega

omit nonempty in
/-- Zeros between a point and the digits are places behind the point, and have
no value of their own. -/
theorem scientific?_before (places : Nat) :
    scientific? (['0', '.'] ++ List.replicate places '0' ++ digits) =
      some (scientificBits (valueOf digits) (Int.negSucc places + 1 - digits.length)) := by
  have behind : ∀ c ∈ List.replicate places '0' ++ digits, c.isDigit = true := by
    intro c member
    rcases List.mem_append.mp member with zero | digit
    · exact isDigit_of_mem_zeros c zero
    · exact all c digit
  have read := scientific?_point ['0'] _ [] (by simp) behind (by simp)
    (by simp [Ends])
  have value : valueOf (['0'] ++ (List.replicate places '0' ++ digits)) = valueOf digits := by
    rw [← List.append_assoc, ← List.replicate_one, List.replicate_append_replicate, valueOf_append,
      valueOf_zeros, Nat.zero_mul, Nat.zero_add]
  rw [List.append_nil] at read
  refine read.trans (congrArg some ?_)
  rw [value, List.length_append, List.length_replicate]
  refine congrArg (scientificBits _) ?_
  omega

/-- A power of ten behind the digits moves the point. There is no point if there
is only one digit. -/
theorem scientific?_exponent (width : Nat) (exponent : Int) :
    scientific? (digits.take 1 ++ (if (digits.drop 1).isEmpty then [] else '.' :: digits.drop 1) ++
        'e' :: (if exponent < 0 then '-' else '+') ::
          fillLeft width (Nat.toDigits 10 exponent.natAbs)) =
      some (scientificBits (valueOf digits) (exponent + 1 - digits.length)) := by
  have written := exponent?_written width exponent
  generalize hidden : 'e' :: (if exponent < 0 then '-' else '+') ::
    fillLeft width (Nat.toDigits 10 exponent.natAbs) = tail at written ⊢
  have ends : Ends tail := by
    rw [← hidden]
    simp [Ends]
  have pointless : tail.head? ≠ some '.' := by
    rw [← hidden]
    simp
  cases digits with
  | nil => exact absurd rfl nonempty
  | cons first fraction =>
    cases fraction with
    | nil =>
      have read := scientific?_whole all nonempty ends pointless
      rw [written] at read
      refine read.trans (congrArg some (congrArg (scientificBits _) ?_))
      simp only [List.length_singleton]
      omega
    | cons second rest =>
      have read := scientific?_point [first] (second :: rest) tail
        (fun c member => all c (List.mem_cons.mpr (.inl (List.mem_singleton.mp member))))
        (fun c member => all c (List.mem_cons_of_mem first member)) (by simp) ends
      rw [written] at read
      refine Eq.trans (by simp) (read.trans (congrArg some ?_))
      refine congrArg (scientificBits _) ?_
      simp only [List.length_cons]
      omega

/-- Every layout of digits is read as the number that it shows. Which layout is
taken depends on where the point would stand, and there is a lemma for each. -/
theorem scientific?_write (layout : Layout) (exponent : Int) :
    scientific? (layout.write digits exponent) =
      some (scientificBits (valueOf digits) (exponent + 1 - digits.length)) := by
  unfold Layout.write
  split
  · split
    · rename_i places _
      rcases Nat.lt_or_ge (places + 1) digits.length with longer | shorter
      · have fraction : (digits.drop (places + 1)).isEmpty = false := by simpa using longer
        have whole : (digits.take (places + 1)).length = places + 1 := by
          rw [List.length_take, Nat.min_eq_left (Nat.le_of_lt longer)]
        simpa [fraction, whole] using scientific?_among all nonempty longer
      · simpa [List.take_of_length_le shorter, List.drop_of_length_le shorter] using
          scientific?_behind all nonempty shorter
    · rename_i places _
      exact scientific?_before all places
  · exact scientific?_exponent all nonempty layout.exponentDigits exponent

end Write

end Numeral

/-! ## The digits of a double -/

namespace Double

open Decimal

/-- Without its final zeros, a number keeps its digits. Zero is left out, as
nothing would remain of it. -/
theorem exists_zeros {digits : List Char} (nonzero : valueOf digits ≠ 0) :
    ∃ zeros, digits = dropFinalZeros digits ++ List.replicate zeros '0' := by
  have last : digits.reverse.takeWhile (· == '0') =
      List.replicate (digits.reverse.takeWhile (· == '0')).length '0' :=
    List.eq_replicate_of_mem fun _ member =>
      beq_iff_eq.mp (List.mem_takeWhile_imp (p := (· == '0')) member)
  have split : digits = (digits.reverse.dropWhile (· == '0')).reverse ++
      List.replicate (digits.reverse.takeWhile (· == '0')).length '0' := by
    rw [← List.reverse_replicate, ← last, ← List.reverse_append, List.takeWhile_append_dropWhile,
      List.reverse_reverse]
  unfold dropFinalZeros
  split
  · rename_i none
    rw [none, List.nil_append] at split
    rw [split, valueOf_zeros] at nonzero
    exact absurd rfl nonzero
  · exact ⟨_, split⟩

/-- A decimal that reads back as a double is read as this double. The test that
the search for the shortest decimal makes is stated in units of the expansion,
and reading starts from the decimal itself. -/
theorem scientificBits_of_readsBack {bits coefficient power : Nat}
    (reads : readsBack bits coefficient power = true) :
    scientificBits coefficient ((power : Int) - expansionPlaces) = bits := by
  rw [scientificBits_eq]
  exact beq_iff_eq.mp reads

/-- The digits of a finite double: there is at least one, and no more than the
bound. They stand for the double, and the power of ten has four digits at
most. -/
theorem of_digits {bits : Nat} (finite : bits < infiniteBits) :
    (∀ c ∈ (digits bits).1, c.isDigit = true) ∧ (digits bits).1 ≠ [] ∧
      (digits bits).1.length ≤ digitBound ∧ (digits bits).2.natAbs < 10000 ∧
      scientificBits (valueOf (digits bits).1) ((digits bits).2 + 1 - (digits bits).1.length) =
        bits := by
  by_cases zero : bits = 0
  · have parts : digits bits = (['0'], 0) := if_pos zero
    have value : valueOf ['0'] = 0 := rfl
    have bound : 1 ≤ digitBound := by decide
    rw [parts, value, zero]
    exact ⟨by simp, by simp, bound, by decide, rfl⟩
  · have read := (of_shortest finite).1
    have length := length_shortest_le finite zero
    have power := power_shortest_lt finite
    have positive := pos_of_readsBack read zero
    have bound : digitBound + (digitBound + expansionPlaces) + 1 < 10000 := by decide +kernel
    have value := valueOf_toDigits (shortest bits).1
    have all : ∀ c ∈ Nat.toDigits 10 (shortest bits).1, c.isDigit = true :=
      fun c member => Nat.isDigit_of_mem_toDigits (by decide) (by decide) member
    unfold digits
    rw [if_neg zero]
    generalize shortest bits = found at *
    obtain ⟨coefficient, places⟩ := found
    dsimp only at *
    generalize Nat.toDigits 10 coefficient = written at *
    obtain ⟨zeros, whole⟩ := exists_zeros (value ▸ Nat.ne_of_gt positive)
    generalize dropFinalZeros written = kept at *
    subst whole
    rw [valueOf_append, valueOf_zeros, Nat.add_zero, List.length_replicate] at value
    rw [List.length_append, List.length_replicate] at length ⊢
    refine ⟨fun c member => all c (List.mem_append_left _ member), ?_, by omega, by omega, ?_⟩
    · rintro rfl
      rw [← value] at positive
      exact absurd (Nat.zero_mul _) (Nat.ne_of_gt positive)
    · have power : ((kept.length + zeros + places : Nat) : Int) - (expansionPlaces + 1 : Nat) + 1 -
          kept.length = (places : Int) - expansionPlaces + zeros := by omega
      rw [power, ← Numeral.scientificBits_pad _ zeros, value, Int.add_sub_cancel]
      exact scientificBits_of_readsBack read

end Double

/-! ## The text of a double -/

namespace Numeral

open Decimal Double

/-- The characters with which doubles are shown. None of them is treated in a
special way when a text is prepared for reading. -/
def usual : List Char :=
  "0123456789.+-aefin".toList

theorem toNat_of_isDigit {c : Char} (digit : c.isDigit = true) : 48 ≤ c.toNat ∧ c.toNat ≤ 57 := by
  simpa [Char.isDigit, UInt32.le_iff_toNat_le] using digit

/-- The usual digits are usual characters, and no signs or letters. -/
theorem usual_of_isDigit {c : Char} (digit : c.isDigit = true) :
    c ∈ usual ∧ c ≠ '-' ∧ c ≠ '+' ∧ c.toLower ≠ 'i' ∧ c.toLower ≠ 'n' := by
  have bounds := toNat_of_isDigit digit
  have same := Char.ofNat_toNat c
  generalize c.toNat = code at bounds same
  subst same
  obtain ⟨least, most⟩ := bounds
  interval_cases code <;> decide

/-- Usual characters are read as they are, and take one byte each. -/
theorem of_mem_usual {c : Char} (member : c ∈ usual) :
    isPadding c = false ∧ usualDigit c = c ∧ c ≠ '_' ∧ c.toNat < 0x80 := by
  have all :
      usual.all fun c => !isPadding c && usualDigit c == c && c != '_' && c.toNat < 0x80 := by
    decide +kernel
  simpa [and_assoc] using List.all_eq_true.mp all c member

theorem usual_of_mem_word {c : Char} (member : c ∈ ['i', 'n', 'f'] ∨ c ∈ ['n', 'a', 'n']) :
    c ∈ usual := by
  simp only [List.mem_cons, List.not_mem_nil, or_false] at member
  rcases member with (rfl | rfl | rfl) | rfl | rfl | rfl <;> decide

theorem joinGroups?_of_notMem {text : List Char} (none : '_' ∉ text) (afterDigit : Bool) :
    joinGroups? afterDigit text = some text := by
  induction text generalizing afterDigit with
  | nil => rfl
  | cons c rest ih =>
    obtain ⟨different, later⟩ := not_or.mp (List.mem_cons.not.mp none)
    rw [joinGroups?, if_neg (Ne.symm different), ih later]
    rfl

/-- Of a text in usual characters, only the sign has to be split off. There is
nothing to trim, no digit to translate and no underscore to remove. -/
theorem read?_of_usual {text : List Char} (among : ∀ c ∈ text, c ∈ usual) :
    read? text = (unsigned? (splitSign text).2).map (ofParts (splitSign text).1) := by
  have trimmed : Text.trim isPadding text = text :=
    Text.trim_of_notPadding fun c member => (of_mem_usual (among c member)).1
  have same : text.map usualDigit = text :=
    (List.map_congr_left fun c member => (of_mem_usual (among c member)).2.1).trans (List.map_id _)
  have joined : joinGroups? false text = some text :=
    joinGroups?_of_notMem (fun member => (of_mem_usual (among _ member)).2.2.1 rfl) false
  rw [read?, trimmed, same, joined, Option.bind_eq_bind, Option.bind_some]
  obtain ⟨negative, magnitude⟩ := splitSign text
  dsimp only
  cases unsigned? magnitude <;> rfl

/-- A layout begins with a digit. -/
theorem exists_write (layout : Layout) {digits : List Char} (all : ∀ c ∈ digits, c.isDigit = true)
    (nonempty : digits ≠ []) (exponent : Int) :
    ∃ first rest, layout.write digits exponent = first :: rest ∧ first.isDigit = true := by
  cases digits with
  | nil => exact absurd rfl nonempty
  | cons first later =>
    have digit := all first List.mem_cons_self
    unfold Layout.write
    split
    · split
      · exact ⟨first, _, by rw [List.take_succ_cons]; rfl, digit⟩
      · exact ⟨'0', _, rfl, rfl⟩
    · exact ⟨first, _, rfl, digit⟩

/-- A layout consists of usual characters. -/
theorem usual_write (layout : Layout) {digits : List Char} (all : ∀ c ∈ digits, c.isDigit = true)
    (exponent : Int) : ∀ c ∈ layout.write digits exponent, c ∈ usual := by
  have digit : ∀ c ∈ digits, c ∈ usual := fun c member => (usual_of_isDigit (all c member)).1
  have power : ∀ c ∈ fillLeft layout.exponentDigits (Nat.toDigits 10 exponent.natAbs), c ∈ usual :=
    fun c member => (usual_of_isDigit (isDigit_of_mem_fillLeft c member)).1
  have zero (count : Nat) : ∀ c ∈ List.replicate count '0', c ∈ usual :=
    fun c member => (usual_of_isDigit (isDigit_of_mem_zeros c member)).1
  have point : '.' ∈ usual := by decide
  have nought : '0' ∈ usual := by decide
  have letter : 'e' ∈ usual := by decide
  unfold Layout.write
  intro c member
  split at member
  · split at member
    · simp only [List.mem_append, List.mem_cons] at member
      rcases member with (whole | filled) | rfl | behind
      · exact digit c (List.mem_of_mem_take whole)
      · exact zero _ c filled
      · exact point
      · split at behind
        · rwa [List.mem_singleton.mp behind]
        · exact digit c (List.mem_of_mem_drop behind)
    · simp only [List.mem_append, List.mem_cons, List.not_mem_nil, or_false] at member
      rcases member with ((rfl | rfl) | filled) | behind
      · exact nought
      · exact point
      · exact zero _ c filled
      · exact digit c behind
  · simp only [List.mem_append, List.mem_cons] at member
    rcases member with (whole | behind) | rfl | rfl | written
    · exact digit c (List.mem_of_mem_take whole)
    · split at behind
      · cases behind
      · rcases List.mem_cons.mp behind with rfl | later
        · exact point
        · exact digit c (List.mem_of_mem_drop later)
    · exact letter
    · split <;> decide
    · exact power c written

/-- Neither layouts nor the words for infinity and for what is no number begin
with a sign, so that a sign in front of them is split off and nothing else. -/
theorem splitSign_signed (negative : Bool) {first : Char} {rest : List Char} (minus : first ≠ '-')
    (plus : first ≠ '+') :
    splitSign ((if negative then ['-'] else []) ++ first :: rest) = (negative, first :: rest) := by
  cases negative with
  | true => rfl
  | false =>
    simp only [Bool.false_eq_true, if_false, List.nil_append]
    unfold splitSign
    split
    · rename_i same
      exact absurd (List.cons.inj same).1 minus
    · rename_i same
      exact absurd (List.cons.inj same).1 plus
    · rfl

/-- A text that begins with a digit is not a word. -/
theorem unsigned?_of_isDigit {first : Char} {rest : List Char} (digit : first.isDigit = true) :
    unsigned? (first :: rest) = scientific? (first :: rest) := by
  obtain ⟨_, _, _, infinite, indefinite⟩ := usual_of_isDigit digit
  unfold unsigned?
  simp only
  rw [if_neg, if_neg]
  · exact fun same => indefinite (List.cons.inj same).1
  · rintro (same | same)
    · exact infinite (List.cons.inj same).1
    · exact infinite (List.cons.inj same).1

/-- A layout adds a few characters to the digits: zeros up to the point, or a
power of ten with at most four digits. -/
theorem length_write_le {digits : List Char} {exponent : Int} (size : exponent.natAbs < 10000) :
    (Layout.standard.write digits exponent).length ≤ digits.length + 18 := by
  have power : (Nat.toDigits 10 exponent.natAbs).length ≤ 4 :=
    Nat.toDigits_length 10 _ 4 (by decide) size
  unfold Layout.write
  split
  · rename_i positional
    simp only [Layout.standard] at positional
    split
    · rename_i places _
      rw [Int.ofNat_eq_natCast] at positional
      simp only [List.length_append, List.length_cons, List.length_take, List.length_replicate]
      split
      · simp only [List.length_singleton]
        omega
      · simp only [List.length_drop]
        omega
    · rename_i places _
      simp only [List.length_append, List.length_cons, List.length_replicate, List.length_nil]
      omega
  · simp only [List.length_append, List.length_cons, List.length_take, fillLeft,
      List.length_replicate, Layout.standard]
    split
    · simp only [List.length_nil]
      omega
    · simp only [List.length_cons, List.length_drop]
      omega

/-- The characters that show a double, by kinds: what is no number, an infinity,
or a layout of digits that stand for the double. -/
theorem characters_cases (x : Float) :
    characters x = ['n', 'a', 'n'] ∧ ofParts false indefiniteBits = x ∨
      ∃ body, characters x = (if isNegative x then ['-'] else []) ++ body ∧
        unsigned? body = some (magnitudeBits x) ∧ (∀ c ∈ body, c ∈ usual) ∧
        body.length ≤ digitBound + 18 ∧
        ∃ first rest, body = first :: rest ∧ first ≠ '-' ∧ first ≠ '+' := by
  unfold characters
  simp only
  split
  · rename_i beyond
    exact .inl ⟨rfl, indefinite_of_lt beyond⟩
  · refine .inr ?_
    split
    · rename_i infinite
      refine ⟨['i', 'n', 'f'], rfl, ?_, fun c member => usual_of_mem_word (.inl member), by decide,
        'i', _, rfl, by decide, by decide⟩
      rw [infinite]
      decide
    · rename_i below infinite
      have finite : magnitudeBits x < infiniteBits := by omega
      obtain ⟨all, nonempty, length, size, reads⟩ := of_digits finite
      obtain ⟨first, rest, begins, digit⟩ := exists_write .standard all nonempty
        (digits (magnitudeBits x)).2
      obtain ⟨_, minus, plus, _, _⟩ := usual_of_isDigit digit
      refine ⟨_, rfl, ?_, usual_write .standard all _, Nat.le_trans (length_write_le size) ?_,
        first, rest, begins, minus, plus⟩
      · rw [begins, unsigned?_of_isDigit digit, ← begins, scientific?_write all nonempty, reads]
      · omega

/-- The text that shows a double consists of usual characters, and fits into a
message. -/
theorem usual_characters (x : Float) :
    (∀ c ∈ characters x, c ∈ usual) ∧ (characters x).length ≤ digitBound + 19 := by
  rcases characters_cases x with ⟨shown, _⟩ | ⟨body, shown, _, among, length, _⟩
  · rw [shown]
    exact ⟨fun c member => usual_of_mem_word (.inr member), by decide⟩
  · rw [shown]
    cases isNegative x with
    | true =>
      refine ⟨fun c member => ?_, Nat.succ_le_succ length⟩
      rcases List.mem_cons.mp member with rfl | later
      · decide
      · exact among c later
    | false => exact ⟨among, Nat.le_succ_of_le length⟩

/-- A double is read back from its text. The sign is split off and put on again,
and what remains is a word or a layout of digits that stand for the double
(`characters_cases`). -/
theorem read?_characters (x : Float) : read? (characters x) = some x := by
  rw [read?_of_usual (usual_characters x).1]
  rcases characters_cases x with
    ⟨shown, indefinite⟩ | ⟨body, shown, read, _, _, first, rest, begins, minus, plus⟩
  · have word : unsigned? ['n', 'a', 'n'] = some indefiniteBits := by decide
    have split : splitSign ['n', 'a', 'n'] = (false, ['n', 'a', 'n']) := rfl
    rw [shown, split, word, Option.map_some, indefinite]
  · rw [shown, begins, splitSign_signed _ minus plus, ← begins, read, Option.map_some,
      ofParts_parts]

end Numeral

end Reckon
