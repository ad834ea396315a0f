import Mathlib.Data.List.Chain
import Mathlib.Data.List.Induction
import Reckon.Proofs.Keypad.Display

/-!
# Operators in a typed expression

An operator key does nothing on an empty expression and takes the place of an
operator that stands last. This keeps the expression *tidy*: no operator stands
first, and none behind another. But the key also takes the place of a point that
stands last, whatever is in front of the point. Alone or behind an operator the
point is *bare*, and the operator that replaces it then stands where none should
be (`tidy_typeOperator_iff`).

Nothing else goes wrong: expressions stay tidy exactly as long as no operator
key is pressed behind a bare point.
-/

namespace Reckon

/-- The key types one character or takes characters away; it neither changes a
sign nor enters an expression. The equals key is simple, too. -/
def Key.IsSimple : Key → Prop
  | .digit text => ∃ c ∈ digitKeys, text = [c]
  | .operator text => ∃ c ∈ operatorKeys, text = [c]
  | .delete => True
  | .clear => True
  | .toggleSign => False
  | .equals => True
  | .enter _ => False

namespace Keypad

/-- No operator stands first, and none stands behind another. -/
structure Tidy (typed : List Char) : Prop where
  first : ∀ c ∈ typed.head?, c ∉ operatorKeys
  apart : typed.IsChain fun before after => ¬(before ∈ operatorKeys ∧ after ∈ operatorKeys)

/-- A point stands last, alone or behind an operator. So it belongs to no
number, and what stands before it takes no operator. -/
def BarePoint (typed : List Char) : Prop :=
  typed.getLast? = some '.' ∧ typed.dropLast.getLast?.all (· ∈ operatorKeys) = true

instance (typed : List Char) : Decidable (BarePoint typed) :=
  inferInstanceAs (Decidable (_ ∧ _))

variable {typed : List Char} {c : Char}

theorem tidy_nil : Tidy [] :=
  ⟨by simp, .nil⟩

/-- An operator may be added behind a character that is no operator, and others
anywhere. All keys act on the end of the expression, so this decides for each of
them. -/
theorem tidy_concat_iff (typed : List Char) (c : Char) :
    Tidy (typed ++ [c]) ↔
      Tidy typed ∧ (c ∈ operatorKeys → ∃ last ∈ typed.getLast?, last ∉ operatorKeys) := by
  constructor
  · rintro ⟨first, apart⟩
    obtain ⟨before, _, joint⟩ := List.isChain_append.mp apart
    refine ⟨⟨?_, before⟩, ?_⟩
    · intro d begins
      exact first d (by simp [Option.mem_def.mp begins])
    · intro operator
      cases ends : typed.getLast? with
      | none =>
        obtain rfl := List.getLast?_eq_none_iff.mp ends
        exact absurd operator (first c rfl)
      | some last => exact ⟨last, rfl, fun other => joint last ends c rfl ⟨other, operator⟩⟩
  · rintro ⟨⟨first, apart⟩, room⟩
    refine ⟨?_, List.isChain_append.mpr ⟨apart, .singleton c, ?_⟩⟩
    · intro d begins operator
      cases typed with
      | nil =>
        obtain rfl : c = d := Option.some.inj begins
        obtain ⟨last, ends, _⟩ := room operator
        cases ends
      | cons e rest => exact first d begins operator
    · rintro last ends d begins ⟨other, operator⟩
      obtain rfl : c = d := Option.some.inj begins
      obtain ⟨final, same, free⟩ := room operator
      obtain rfl := Option.some.inj (ends.symm.trans same)
      exact free other

/-- What is left when the last character is taken away is tidy. -/
theorem Tidy.tidy_dropLast (tidy : Tidy typed) : Tidy typed.dropLast := by
  cases typed using List.reverseRecOn with
  | nil => exact tidy
  | append_singleton before last =>
    rw [List.dropLast_concat]
    exact ((tidy_concat_iff before last).mp tidy).1

theorem not_operator_of_digit (digit : c ∈ digitKeys) : c ∉ operatorKeys := by
  have apart : (digitKeys.all fun c => decide (c ∉ operatorKeys)) = true := by decide
  exact of_decide_eq_true (List.all_eq_true.mp apart c digit)

theorem Tidy.tidy_typeDigit (tidy : Tidy typed) (digit : c ∈ digitKeys) :
    Tidy (typeDigit typed [c]) := by
  unfold Keypad.typeDigit
  split
  · exact tidy
  · exact (tidy_concat_iff typed c).mpr
      ⟨tidy, fun operator => absurd operator (not_operator_of_digit digit)⟩

/-- An operator key does nothing on an empty expression, and takes the place of
an operator that stands last. -/
theorem typeOperator_spec (before text : List Char) {last : Char} (operator : last ∈ operatorKeys) :
    typeOperator [] text = [] ∧ typeOperator (before ++ [last]) text = before ++ text := by
  refine ⟨rfl, ?_⟩
  simp [typeOperator, operator]

/-- An operator key keeps an expression tidy, except behind a bare point. In
place of an operator that stands last the new one may stand as well; in place of
a point it may stand if there is something in front that is no operator. -/
theorem tidy_typeOperator_iff (tidy : Tidy typed) (operator : c ∈ operatorKeys) :
    Tidy (typeOperator typed [c]) ↔ ¬BarePoint typed := by
  cases typed using List.reverseRecOn with
  | nil => exact iff_of_true tidy (by simp [BarePoint])
  | append_singleton before last =>
    obtain ⟨front, room⟩ := (tidy_concat_iff before last).mp tidy
    by_cases other : last ∈ operatorKeys
    · have kept : last ≠ '.' := by
        rintro rfl
        exact absurd other (by decide)
      rw [(typeOperator_spec before [c] other).2, tidy_concat_iff]
      exact iff_of_true ⟨front, fun _ => room other⟩ fun bare => kept (by simpa using bare.1)
    · by_cases point : last = '.'
      · subst point
        have replaced : typeOperator (before ++ ['.']) [c] = before ++ [c] := by
          simp [typeOperator]
        rw [replaced, tidy_concat_iff, and_iff_right front, imp_iff_right operator]
        cases ends : before.getLast? <;> simp [BarePoint, ends]
      · have added : typeOperator (before ++ [last]) [c] = before ++ [last] ++ [c] := by
          simp [typeOperator, other, point]
        rw [added, tidy_concat_iff]
        refine iff_of_true ⟨tidy, fun _ => ⟨last, by simp, other⟩⟩ fun bare => point ?_
        simpa using bare.1

theorem occursIn_of_mem {row : List Char} (member : c ∈ row) : occursIn [c] row = true := by
  induction row with
  | nil => cases member
  | cons first rest ih =>
    rw [occursIn, Bool.or_eq_true]
    rcases List.mem_cons.mp member with rfl | later
    · exact .inl (by simp)
    · exact .inr (ih later)

/-- A simple key keeps an expression tidy, unless it is an operator key behind a
bare point. -/
theorem Tidy.tidy_press {keypad : Keypad} {key : Key} (tidy : Tidy keypad.typed)
    (simple : key.IsSimple) (clear : ∀ text, key = .operator text → ¬BarePoint keypad.typed) :
    Tidy (keypad.press key).1.typed := by
  cases key with
  | digit text =>
    obtain ⟨c, digit, rfl⟩ := simple
    rw [Keypad.press, if_pos (occursIn_of_mem digit)]
    exact tidy.tidy_typeDigit digit
  | operator text =>
    obtain ⟨c, operator, rfl⟩ := simple
    rw [Keypad.press, if_pos (occursIn_of_mem operator)]
    exact (tidy_typeOperator_iff tidy operator).mpr (clear [c] rfl)
  | delete => exact tidy.tidy_dropLast
  | clear => exact tidy_nil
  | toggleSign => cases simple
  | equals => exact tidy
  | enter text => cases simple

/-- Simple keys on a new keypad keep the expression tidy at every moment if and
only if no operator key is pressed behind a bare point. On an empty expression
an operator key does nothing, and it takes the place of an operator that stands
last.

Proof: a new keypad is tidy, and every simple key keeps it so, apart from the
operator keys (`Tidy.tidy_press`). For these, `tidy_typeOperator_iff` says that
a bare point is not only where tidiness may be lost, but where it is. -/
theorem tidy_pressAll_iff (keys : List Key) (simple : ∀ key ∈ keys, key.IsSimple) :
    ((∀ before, before <+: keys → Tidy (pressAll {} before).typed) ↔
      ∀ before text after, keys = before ++ .operator text :: after →
        ¬BarePoint (pressAll {} before).typed) ∧
    ∀ (keypad : Keypad) (op : Char), op ∈ operatorKeys →
      (keypad.typed = [] → (keypad.press (.operator [op])).1.typed = []) ∧
      ∀ before last, last ∈ operatorKeys → keypad.typed = before ++ [last] →
        (keypad.press (.operator [op])).1.typed = before ++ [op] := by
  refine ⟨⟨?_, ?_⟩, ?_⟩
  · rintro tidy before text after rfl
    obtain ⟨op, operator, rfl⟩ := simple (.operator text) (by simp)
    have now := tidy before (List.prefix_append ..)
    have next := tidy (before ++ [.operator [op]]) ⟨after, by simp⟩
    rw [pressAll_append_cons, press, if_pos (occursIn_of_mem operator)] at next
    exact (tidy_typeOperator_iff now operator).mp next
  · intro clear before begins
    induction before using List.reverseRecOn with
    | nil => exact tidy_nil
    | append_singleton earlier key ih =>
      obtain ⟨after, rfl⟩ := begins
      rw [pressAll_append_cons]
      refine (ih ⟨key :: after, by simp⟩).tidy_press (simple key (by simp)) ?_
      rintro text rfl
      exact clear earlier text after (by simp)
  · intro keypad op operator
    rw [press, if_pos (occursIn_of_mem operator)]
    constructor
    · intro empty
      simp [empty, typeOperator]
    · intro before last other ends
      simp only [ends, (typeOperator_spec before [op] other).2]

/-- The keys for `5+`, a point and `*`. -/
def pointedKeys : List Key :=
  [.digit ['5'], .operator ['+'], .digit ['.'], .operator ['*']]

/-- Not all expressions typed with simple keys are tidy: replacing the bare
point of `5+.` leaves two operators one behind the other. -/
theorem pointedKeys_not_tidy :
    ¬∀ keys, (∀ key ∈ keys, key.IsSimple) → Tidy (pressAll {} keys).typed := by
  intro always
  have simple : ∀ key ∈ pointedKeys, key.IsSimple := by
    simp [pointedKeys, Key.IsSimple, digitKeys, operatorKeys]
  have typed : (pressAll {} pointedKeys).typed = ['5', '+', '*'] := by decide
  have tidy := always pointedKeys simple
  rw [typed] at tidy
  exact absurd tidy.apart (by decide)

/-- The keys for `5+×2`, a point and `-`. -/
def replacingKeys : List Key :=
  [.digit ['5'], .operator ['+'], .operator ['×'], .digit ['2'], .digit ['.'], .operator ['-']]

/-- Here an operator takes the place of another one and of a point that is not
bare. -/
theorem replacingKeys_tidy :
    (∀ key ∈ replacingKeys, key.IsSimple) ∧
      (pressAll {} replacingKeys).typed = ['5', '×', '2', '-'] ∧
      ∀ before, before <+: replacingKeys → Tidy (pressAll {} before).typed := by
  have simple : ∀ key ∈ replacingKeys, key.IsSimple := by
    simp [replacingKeys, Key.IsSimple, digitKeys, operatorKeys]
  refine ⟨simple, by decide, (tidy_pressAll_iff replacingKeys simple).1.mpr ?_⟩
  intro before text after parts
  have clear : (replacingKeys.inits.all fun start =>
      decide ¬BarePoint (pressAll {} start).typed) = true := by decide
  have start : before ∈ replacingKeys.inits := (List.mem_inits ..).mpr ⟨_, parts.symm⟩
  exact of_decide_eq_true (List.all_eq_true.mp clear before start)

end Keypad

end Reckon
