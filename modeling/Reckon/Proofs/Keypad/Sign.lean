import Reckon.Proofs.Keypad.Number
import Reckon.Proofs.Keypad.Operators

/-!
# The sign key

The sign key changes nothing but the sign in front of the number at the end of
the expression. A minus sign is one only where a sign may stand: at the very
start, or behind an operator or an opening parenthesis. Any other minus sign is
a subtraction, and a new sign is put behind it.

The key finds the same number when it is pressed again. It then undoes what it
did, with two exceptions. Behind a closing parenthesis, or behind a point that
is not of the number, no sign may stand: the minus sign that the key puts there
is taken for a subtraction, and another one joins it. And of two signs one
behind the other, the key takes away first one and then the other. Such signs
are never typed, unless an operator key is pressed behind a bare point.
-/

namespace Reckon.Keypad

variable {typed head number : List Char} {c : Char}

/-! ## The sign -/

/-- A sign may stand behind a text: it is empty, or ends with an operator or an
opening parenthesis. Behind anything else a minus sign is a subtraction. -/
def TakesSign (before : List Char) : Prop :=
  ∀ c ∈ before.getLast?, c ∈ operatorKeys ∨ c = '('

/-- A text ends with a minus sign that is a sign, and not a subtraction. -/
def IsSigned (head : List Char) : Prop :=
  head.getLast? = some '-' ∧ TakesSign head.dropLast

instance (before : List Char) : Decidable (TakesSign before) :=
  decidable_of_iff (before.getLast?.all (fun c => c ∈ operatorKeys ∨ c = '(') = true)
    (by simp [TakesSign, Option.all_eq_true])

instance (head : List Char) : Decidable (IsSigned head) :=
  inferInstanceAs (Decidable (_ ∧ _))

/-- A text ends with two signs, one behind the other. -/
def IsDoublySigned (head : List Char) : Prop :=
  IsSigned head ∧ IsSigned head.dropLast

theorem isSigned_concat_iff (before : List Char) (c : Char) :
    IsSigned (before ++ [c]) ↔ c = '-' ∧ TakesSign before := by
  simp [IsSigned]

/-- Another sign may stand behind a sign, since the minus sign is an
operator. -/
theorem IsSigned.takesSign_of_isSigned (signed : IsSigned head) : TakesSign head := by
  intro c last
  obtain rfl := Option.some.inj (signed.1.symm.trans last)
  exact .inl (by decide)

theorem IsSigned.dropLast_concat (signed : IsSigned head) : head.dropLast ++ ['-'] = head :=
  List.dropLast_append_getLast? '-' signed.1

/-- The sign key takes away a sign, and otherwise puts a minus sign in. The key
looks at one more character than the last, which says whether the minus sign
there is a sign. -/
theorem toggleHead_eq (head : List Char) :
    toggleHead head = if IsSigned head then head.dropLast else head ++ ['-'] := by
  cases head using List.reverseRecOn with
  | nil => simp [toggleHead, IsSigned]
  | append_singleton before last =>
    rw [List.dropLast_concat, if_congr (isSigned_concat_iff before last) rfl rfl]
    by_cases minus : last = '-'
    · subst minus
      rw [if_congr (and_iff_right rfl) rfl rfl]
      cases before using List.reverseRecOn with
      | nil => simp [toggleHead, TakesSign]
      | append_singleton earlier c => simp [toggleHead, TakesSign]
    · simp [toggleHead, minus]

/-- Whatever the sign key leaves before a number does not belong to it: that
ends with a minus sign, or with something behind which a sign was allowed. -/
theorem severs_toggleHead (head number : List Char) : Severs (toggleHead head) number := by
  have apart {c : Char} (marked : c ∈ operatorKeys ∨ c = '(') :
      Text.isDigit c = false ∧ (c = '.' → '.' ∈ number) := by
    obtain ⟨undigit, unpointed⟩ := not_isDigit_of_operator marked
    exact ⟨undigit, fun point => absurd point unpointed⟩
  rw [toggleHead_eq]
  split
  · rename_i signed
    exact fun c last => apart (signed.2 c last)
  · intro c last
    obtain rfl : '-' = c := by simpa using last
    exact apart (.inl (by decide))

/-- The sign key puts the number behind the text whose sign has changed, and
finds it there again, because nothing before it belongs to it. -/
theorem toggle_of_splitNumber? (split : splitNumber? typed = some (head, number)) :
    toggle typed = toggleHead head ++ number ∧
      splitNumber? (toggle typed) = some (toggleHead head, number) := by
  obtain ⟨numeric, _⟩ := of_splitNumber? split
  have changed : toggle typed = toggleHead head ++ number := by
    simp only [toggle, split]
  refine ⟨changed, ?_⟩
  rw [changed]
  exact splitNumber?_of_parts (dropFinalLineFeed_append numeric _).symm numeric
    (severs_toggleHead head number)

/-- The sign key changes only the sign of the number at the end, not counting a
final line feed. If there is no such number, it changes nothing. Otherwise the
longest one, which is also the one that begins first, is kept, and the text
before it loses its last character if that is a sign, and gets a minus sign if
it is not. Pressed again, the key finds the same number. It never touches the
result.

Proof: what the key splits off is the longest number at the end
(`splitNumber?_eq_some_iff`). It then changes the text before the number
(`toggleHead_eq`), and what it leaves there ends with no part of a number
(`severs_toggleHead`), so the number is still the longest one. -/
theorem toggleSign_changes_only_sign (keypad : Keypad) :
    (keypad.press .toggleSign).1.result = keypad.result ∧
    (((keypad.press .toggleSign).1.typed = keypad.typed ∧
        ∀ number, number <:+ dropFinalLineFeed keypad.typed → ¬IsNumber number) ∨
      ∃ head number changed, TrailingNumber (dropFinalLineFeed keypad.typed) head number ∧
        FirstNumber keypad.typed head number ∧
        changed = (if IsSigned head then head.dropLast else head ++ ['-']) ∧
        (keypad.press .toggleSign).1.typed = changed ++ number ∧
        TrailingNumber (dropFinalLineFeed (keypad.press .toggleSign).1.typed) changed number) := by
  refine ⟨rfl, ?_⟩
  have pressed : (keypad.press .toggleSign).1.typed = toggle keypad.typed := rfl
  rw [pressed]
  cases split : splitNumber? keypad.typed with
  | none => exact .inl ⟨by simp only [toggle, split], splitNumber?_eq_none_iff.mp split⟩
  | some parts =>
    obtain ⟨head, number⟩ := parts
    obtain ⟨changed, again⟩ := toggle_of_splitNumber? split
    have trailing := splitNumber?_eq_some_iff.mp split
    exact .inr ⟨head, number, toggleHead head, trailing, firstNumber_iff.mpr trailing,
      toggleHead_eq head, changed, splitNumber?_eq_some_iff.mp again⟩

/-- The digits may be of any script, and a final line feed is lost. -/
example : toggle "2*-٣.٥\n".toList = "2*٣.٥".toList := by decide +kernel

/-! ## Pressed twice -/

/-- Where a sign may stand and not two of them do, the sign key undoes itself.
It removes the sign that it has put in, or puts in again the one that it has
removed. -/
theorem toggleHead_toggleHead (takes : TakesSign head) (single : ¬IsDoublySigned head) :
    toggleHead (toggleHead head) = head := by
  by_cases signed : IsSigned head
  · have unsigned : ¬IsSigned head.dropLast := fun other => single ⟨signed, other⟩
    rw [toggleHead_eq head, if_pos signed, toggleHead_eq, if_neg unsigned, signed.dropLast_concat]
  · have added : IsSigned (head ++ ['-']) := (isSigned_concat_iff head '-').mpr ⟨rfl, takes⟩
    rw [toggleHead_eq head, if_neg signed, toggleHead_eq, if_pos added, List.dropLast_concat]

/-- Where no sign may stand, the sign key puts two minus signs in. The first is
a subtraction, and behind a subtraction no second press finds a sign to
remove. -/
theorem toggleHead_toggleHead_of_not (untaken : ¬TakesSign head) :
    toggleHead (toggleHead head) = head ++ ['-', '-'] := by
  have unsigned : ¬IsSigned head := fun signed => untaken signed.takesSign_of_isSigned
  have subtraction : ¬IsSigned (head ++ ['-']) :=
    fun signed => untaken ((isSigned_concat_iff head '-').mp signed).2
  rw [toggleHead_eq head, if_neg unsigned, toggleHead_eq, if_neg subtraction, List.append_assoc]
  rfl

/-- Pressed twice, the sign key changes the sign before the same number
twice. -/
theorem toggle_toggle_of_splitNumber? (split : splitNumber? typed = some (head, number)) :
    toggle (toggle typed) = toggleHead (toggleHead head) ++ number :=
  (toggle_of_splitNumber? (toggle_of_splitNumber? split).2).1

/-- No operator stands behind a sign. Unlike tidiness, this is kept by the sign
key, too, which puts operators behind one another. -/
def SignsApart (typed : List Char) : Prop :=
  ∀ before c, before ++ ['-', c] <+: typed → TakesSign before → c ∉ operatorKeys

theorem SignsApart.signsApart_of_prefix {start : List Char} (apart : SignsApart typed)
    (begins : start <+: typed) : SignsApart start :=
  fun before c within => apart before c (within.trans begins)

/-- A character may be added unless it is an operator behind a sign. This is the
only place where signs can come to stand one behind the other. -/
theorem signsApart_concat_iff (typed : List Char) (c : Char) :
    SignsApart (typed ++ [c]) ↔ SignsApart typed ∧ (c ∈ operatorKeys → ¬IsSigned typed) := by
  constructor
  · intro apart
    refine ⟨apart.signsApart_of_prefix (List.prefix_append typed [c]), fun operator signed => ?_⟩
    refine apart typed.dropLast c ?_ signed.2 operator
    rw [List.append_cons, signed.dropLast_concat]
  · rintro ⟨apart, free⟩ before d within takes
    rcases List.prefix_concat_iff.mp within with whole | inside
    · rw [List.append_cons] at whole
      obtain ⟨signed, same⟩ := List.append_inj' whole rfl
      obtain rfl : d = c := List.singleton_inj.mp same
      intro operator
      exact free operator (signed ▸ (isSigned_concat_iff before '-').mpr ⟨rfl, takes⟩)
    · exact apart before d inside takes

theorem SignsApart.signsApart_append (apart : SignsApart typed) {text : List Char}
    (free : ∀ c ∈ text, c ∉ operatorKeys) : SignsApart (typed ++ text) := by
  induction text generalizing typed with
  | nil => rwa [List.append_nil]
  | cons c rest ih =>
    rw [List.append_cons]
    apply ih
    · exact (signsApart_concat_iff typed c).mpr
        ⟨apart, fun operator => absurd operator (free c List.mem_cons_self)⟩
    · exact fun d later => free d (List.mem_cons_of_mem c later)

theorem SignsApart.signsApart_typeDigit (apart : SignsApart typed) (digit : c ∈ digitKeys) :
    SignsApart (typeDigit typed [c]) := by
  unfold Keypad.typeDigit
  split
  · exact apart
  · exact apart.signsApart_append fun d member =>
      List.mem_singleton.mp member ▸ not_operator_of_digit digit

/-- An operator key puts no operator behind a sign, except where it takes the
place of a bare point. -/
theorem SignsApart.signsApart_typeOperator (apart : SignsApart typed) (clear : ¬BarePoint typed) :
    SignsApart (typeOperator typed [c]) := by
  cases typed using List.reverseRecOn with
  | nil => exact apart
  | append_singleton before last =>
    obtain ⟨front, free⟩ := (signsApart_concat_iff before last).mp apart
    by_cases other : last ∈ operatorKeys
    · rw [(typeOperator_spec before [c] other).2]
      exact (signsApart_concat_iff before c).mpr ⟨front, fun _ => free other⟩
    · by_cases point : last = '.'
      · subst point
        have replaced : Keypad.typeOperator (before ++ ['.']) [c] = before ++ [c] := by
          simp [Keypad.typeOperator]
        rw [replaced]
        refine (signsApart_concat_iff before c).mpr ⟨front, fun _ signed => clear ⟨by simp, ?_⟩⟩
        simp [signed.1, operatorKeys]
      · have added : Keypad.typeOperator (before ++ [last]) [c] = before ++ [last] ++ [c] := by
          simp [Keypad.typeOperator, other, point]
        rw [added]
        refine (signsApart_concat_iff _ c).mpr ⟨apart, fun _ signed => other ?_⟩
        rw [((isSigned_concat_iff before last).mp signed).1]
        decide

/-- The sign key puts no operator behind a sign. It puts a minus sign in only
where none is yet, and the number behind it holds no operator. -/
theorem SignsApart.signsApart_toggle (apart : SignsApart typed) : SignsApart (toggle typed) := by
  cases split : splitNumber? typed with
  | none => simpa only [Keypad.toggle, split] using apart
  | some parts =>
    obtain ⟨head, number⟩ := parts
    rw [(toggle_of_splitNumber? split).1, toggleHead_eq]
    have begins : head <+: typed :=
      (List.prefix_append head number).trans
        (append_of_splitNumber? split ▸ prefix_dropFinalLineFeed typed)
    refine SignsApart.signsApart_append ?_ (of_splitNumber? split).1.notMem_operatorKeys
    split
    · exact apart.signsApart_of_prefix ((List.dropLast_prefix head).trans begins)
    · rename_i unsigned
      exact (signsApart_concat_iff head '-').mpr ⟨apart.signsApart_of_prefix begins,
        fun _ => unsigned⟩

/-- Two signs do not stand one behind the other where no operator stands behind
a sign. -/
theorem SignsApart.not_doublySigned (apart : SignsApart head) : ¬IsDoublySigned head := by
  rintro ⟨signed, other⟩
  rw [← signed.dropLast_concat] at apart
  exact ((signsApart_concat_iff head.dropLast '-').mp apart).2 (by decide) other

/-- No key puts an operator behind a sign, except an operator key behind a bare
point. -/
theorem SignsApart.signsApart_press {keypad : Keypad} {key : Key} (apart : SignsApart keypad.typed)
    (pressed : key.IsSimple ∨ key = .toggleSign)
    (clear : ∀ text, key = .operator text → ¬BarePoint keypad.typed) :
    SignsApart (keypad.press key).1.typed := by
  rcases pressed with simple | rfl
  · cases key with
    | digit text =>
      obtain ⟨c, digit, rfl⟩ := simple
      rw [Keypad.press, if_pos (occursIn_of_mem digit)]
      exact apart.signsApart_typeDigit digit
    | operator text =>
      obtain ⟨c, operator, rfl⟩ := simple
      rw [Keypad.press, if_pos (occursIn_of_mem operator)]
      exact apart.signsApart_typeOperator (clear [c] rfl)
    | delete => exact apart.signsApart_of_prefix (List.dropLast_prefix keypad.typed)
    | clear => exact fun before c within => absurd (List.prefix_nil.mp within) (by simp)
    | toggleSign => cases simple
    | equals => exact apart
    | enter text => cases simple
  · exact apart.signsApart_toggle

/-- A run of keys puts no operator behind a sign, unless an operator key is
pressed behind a bare point: the induction over all keys pressed. -/
theorem signsApart_pressAll {keys : List Key}
    (pressed : ∀ key ∈ keys, key.IsSimple ∨ key = .toggleSign)
    (clear : ∀ before text after, keys = before ++ .operator text :: after →
      ¬BarePoint (pressAll {} before).typed) : SignsApart (pressAll {} keys).typed := by
  induction keys using List.reverseRecOn with
  | nil => exact fun before c within => absurd (List.prefix_nil.mp within) (by simp)
  | append_singleton earlier key ih =>
    rw [pressAll_append_cons]
    refine SignsApart.signsApart_press (ih ?_ ?_) (pressed key (by simp)) ?_
    · exact fun other member => pressed other (List.mem_append_left [key] member)
    · rintro before text after rfl
      exact clear before text (after ++ [key]) (by simp)
    · rintro text rfl
      exact clear earlier text [] rfl

theorem Keyed.keyed_dropFinalLineFeed (keyed : Keyed typed) : dropFinalLineFeed typed = typed := by
  unfold Keypad.dropFinalLineFeed
  split
  · rename_i last
    exact absurd (keyed '\n' (List.mem_of_getLast? last)) (by decide)
  · rfl

/-- Where no sign may stand before the number of a keyed expression, there is a
closing parenthesis or a point that does not belong to the number. All other
characters of keys take a sign behind them or would belong to the number. -/
theorem Keyed.getLast?_of_not_takesSign (keyed : Keyed head) (severed : Severs head number)
    (untaken : ¬TakesSign head) : head.getLast? = some ')' ∨ head.getLast? = some '.' := by
  have others : (digitKeys.all fun c =>
      Text.isDigit c || c == '(' || c == ')' || c == '.') = true := by decide +kernel
  by_contra neither
  apply untaken
  intro c last
  rw [Option.mem_def.mp last] at neither
  rcases keyed c (List.mem_of_getLast? last) with digit | operator
  · have kind := List.all_eq_true.mp others c digit
    simp only [(severed c last).1, Bool.or_eq_true, beq_iff_eq, Bool.false_eq_true, false_or]
      at kind
    rcases kind with (opening | closing) | point
    · exact .inr opening
    · exact absurd (.inl (congrArg some closing)) neither
    · exact absurd (.inr (congrArg some point)) neither
  · exact .inl operator

/-- Simple keys and the sign key have been pressed on a new keypad, and now the
sign key is pressed twice. Without a number at the end, or if a sign may stand
before the number and there are no two of them, the expression is the same
again. Where no sign may stand, that is, behind a closing parenthesis or a
point, the expression has got two minus signs before the number. Two signs one
behind the other are never there unless an operator key was pressed behind a
bare point.

Proof: the second press finds the same number as the first
(`toggle_toggle_of_splitNumber?`), so only the text before it has to be
followed. It gets a sign and loses it again, or the other way round, where a
sign may stand (`toggleHead_toggleHead`), and it gets two subtractions where
none may (`toggleHead_toggleHead_of_not`). That signs stand apart is an
invariant of the keys (`SignsApart.signsApart_press`); it excludes two of them,
unless an operator has replaced a bare point. -/
theorem toggleSign_twice (keys : List Key)
    (pressed : ∀ key ∈ keys, key.IsSimple ∨ key = .toggleSign) :
    let keypad := pressAll {} keys
    let twice := ((keypad.press .toggleSign).1.press .toggleSign).1
    ((∀ number, number <:+ keypad.typed → ¬IsNumber number) → twice.typed = keypad.typed) ∧
    ∀ head number, TrailingNumber keypad.typed head number →
      (TakesSign head → ¬IsDoublySigned head → twice.typed = keypad.typed) ∧
      (¬TakesSign head → (head.getLast? = some ')' ∨ head.getLast? = some '.') ∧
        twice.typed = head ++ ['-', '-'] ++ number) ∧
      (IsDoublySigned head → ∃ before text after, keys = before ++ .operator text :: after ∧
        BarePoint (pressAll {} before).typed) := by
  intro keypad twice
  have typed : twice.typed = toggle (toggle keypad.typed) := rfl
  have keyed : Keyed keypad.typed := by
    have empty : Keyed ({} : Keypad).typed := List.forall_mem_nil _
    refine empty.keyed_pressAll keys fun text member => ?_
    rcases pressed _ member with simple | sign
    · exact simple
    · cases sign
  rw [typed]
  constructor
  · intro numberless
    rw [← keyed.keyed_dropFinalLineFeed] at numberless
    have unchanged : toggle keypad.typed = keypad.typed := by
      simp only [toggle, splitNumber?_eq_none_iff.mpr numberless]
    rw [unchanged, unchanged]
  · intro head number trailing
    have parts := trailing.parts
    have split : splitNumber? keypad.typed = some (head, number) :=
      splitNumber?_eq_some_iff.mpr (keyed.keyed_dropFinalLineFeed.symm ▸ trailing)
    have again := toggle_toggle_of_splitNumber? split
    refine ⟨?_, ?_, ?_⟩
    · intro takes single
      rw [again, toggleHead_toggleHead takes single, parts]
    · intro untaken
      have before :
          Keyed head := fun c member => keyed c (parts ▸ List.mem_append_left number member)
      refine ⟨before.getLast?_of_not_takesSign (of_splitNumber? split).2 untaken, ?_⟩
      rw [again, toggleHead_toggleHead_of_not untaken]
    · intro double
      by_contra clear
      have apart : SignsApart (pressAll {} keys).typed := by
        apply signsApart_pressAll pressed
        exact fun before text after same bare => clear ⟨before, text, after, same, bare⟩
      exact (apart.signsApart_of_prefix ⟨number, parts⟩).not_doublySigned double

/-- The keys for `(2)5`. -/
def juxtaposedKeys : List Key :=
  [.digit ['('], .digit ['2'], .digit [')'], .digit ['5']]

/-- Pressed twice behind `(2)5`, the sign key does not undo itself: the first
minus sign is taken for a subtraction, and the second one joins it. -/
theorem juxtaposedKeys_toggled_twice :
    ¬∀ keys, (∀ key ∈ keys, key.IsSimple ∨ key = .toggleSign) →
      (pressAll {} (keys ++ [.toggleSign, .toggleSign])).typed = (pressAll {} keys).typed := by
  intro always
  have pressed : ∀ key ∈ juxtaposedKeys, key.IsSimple ∨ key = .toggleSign := by
    simp [juxtaposedKeys, Key.IsSimple, digitKeys]
  exact absurd (always juxtaposedKeys pressed) (by decide +kernel)

/-- The keys for `3-1.5`, with the sign of `1.5` changed. -/
def subtractionKeys : List Key :=
  [.digit ['3'], .operator ['-'], .digit ['1'], .digit ['.'], .digit ['5'], .toggleSign]

/-- Of the two minus signs in `3--1.5` only the second one is a sign, and it
comes back. -/
theorem subtractionKeys_toggled_twice :
    (∀ key ∈ subtractionKeys, key.IsSimple ∨ key = .toggleSign) ∧
      (pressAll {} subtractionKeys).typed = ['3', '-', '-', '1', '.', '5'] ∧
      (pressAll {} (subtractionKeys ++ [.toggleSign])).typed = ['3', '-', '1', '.', '5'] ∧
      (pressAll {} (subtractionKeys ++ [.toggleSign, .toggleSign])).typed =
        ['3', '-', '-', '1', '.', '5'] := by
  have pressed : ∀ key ∈ subtractionKeys, key.IsSimple ∨ key = .toggleSign := by
    simp [subtractionKeys, Key.IsSimple, digitKeys, operatorKeys]
  have typed : (pressAll {} subtractionKeys).typed = ['3', '-', '-', '1', '.', '5'] := by
    decide +kernel
  have trailing : TrailingNumber (pressAll {} subtractionKeys).typed ['3', '-', '-']
      ['1', '.', '5'] := by
    have split : splitNumber? ['3', '-', '-', '1', '.', '5'] =
        some (['3', '-', '-'], ['1', '.', '5']) := by decide +kernel
    rw [typed]
    exact splitNumber?_eq_some_iff.mp split
  have restored := ((toggleSign_twice subtractionKeys pressed).2 _ _ trailing).1 (by decide)
    fun double => absurd double.2 (by decide)
  exact ⟨pressed, typed, by decide +kernel, restored.trans typed⟩

end Reckon.Keypad
