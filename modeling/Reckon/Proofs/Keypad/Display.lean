import Mathlib.Data.List.Infix
import Reckon.Keypad
import Reckon.Proofs.Scanning

/-!
# What the keypad shows is what it evaluates

Keys leave only characters of keys in the expression, and all of these matter to
an evaluation: a typed expression is *keyed*, and scanning drops nothing of it.
Only an expression that is entered as a whole may contain anything else.

The result is that of the equals key pressed last, unless the clear key has been
pressed since. No other key changes it, and a key that is refused changes
nothing at all.
-/

namespace Reckon.Keypad

/-- All characters of a text are on keys. Digit keys include the point and the
parentheses. -/
def Keyed (text : List Char) : Prop :=
  ∀ c ∈ text, c ∈ digitKeys ∨ c ∈ operatorKeys

/-! ## Editing -/

theorem mem_of_occursIn {piece text : List Char} (occurs : occursIn piece text = true) :
    ∀ c ∈ piece, c ∈ text := by
  induction text with
  | nil =>
    obtain rfl := List.isEmpty_iff.mp occurs
    exact nofun
  | cons first rest ih =>
    intro c member
    rcases Bool.or_eq_true_iff.mp occurs with begins | later
    · exact (List.isPrefixOf_iff_prefix.mp begins).subset member
    · exact List.mem_cons_of_mem first (ih later c member)

/-- A digit key adds nothing but its text. -/
theorem mem_typeDigit {typed text : List Char} {c : Char} (member : c ∈ typeDigit typed text) :
    c ∈ typed ∨ c ∈ text := by
  unfold typeDigit at member
  split at member
  · exact .inl member
  · exact List.mem_append.mp member

theorem mem_typeOperator {typed text : List Char} {c : Char}
    (member : c ∈ typeOperator typed text) : c ∈ typed ∨ c ∈ text := by
  unfold typeOperator at member
  split at member
  · exact .inl member
  · split at member
    · rcases List.mem_append.mp member with before | added
      · exact .inl (List.mem_of_mem_dropLast before)
      · exact .inr added
    · exact List.mem_append.mp member

theorem prefix_dropFinalLineFeed (typed : List Char) : dropFinalLineFeed typed <+: typed := by
  unfold dropFinalLineFeed
  split
  · exact List.dropLast_prefix typed
  · exact List.prefix_refl typed

/-- A number that is split off stood at the end, behind everything else, except
that a final line feed is lost. -/
theorem append_of_splitNumber? {typed head number : List Char}
    (split : splitNumber? typed = some (head, number)) :
    head ++ number = dropFinalLineFeed typed := by
  have parts (text : List Char) := @List.takeWhile_append_dropWhile _ Text.isDigit text
  simp only [splitNumber?] at split
  split at split
  · cases split
  · apply List.reverse_inj.mp
    have whole := parts (dropFinalLineFeed typed).reverse
    split at split
    · rename_i before rest
      cases split
      rw [rest] at whole
      rw [List.reverse_append, List.reverse_reverse, List.reverse_reverse, List.append_assoc,
        List.cons_append, parts before, whole]
    · cases split
      rw [List.reverse_append, List.reverse_reverse, List.reverse_reverse, whole]

theorem mem_toggleHead {head : List Char} {c : Char} (member : c ∈ toggleHead head) :
    c ∈ head ∨ c = '-' := by
  have added (inside : c ∈ head ++ ['-']) : c ∈ head ∨ c = '-' := by simpa using inside
  unfold toggleHead at member
  split at member
  · cases member
  · rename_i before rest reversed
    split at member
    · left
      rw [← List.mem_reverse, reversed]
      exact List.mem_cons_of_mem _ (List.mem_reverse.mp member)
    · exact added member
  · exact added member

/-- The sign key adds nothing but a minus sign, which is on a key. -/
theorem mem_toggle {typed : List Char} {c : Char} (member : c ∈ toggle typed) :
    c ∈ typed ∨ c = '-' := by
  have kept : dropFinalLineFeed typed ⊆ typed := (prefix_dropFinalLineFeed typed).subset
  unfold toggle at member
  split at member
  · exact .inl member
  · rename_i head number split
    have whole := append_of_splitNumber? split
    rcases List.mem_append.mp member with before | inside
    · refine (mem_toggleHead before).imp_left fun present => kept ?_
      exact whole ▸ List.mem_append_left number present
    · exact .inl (kept (whole ▸ List.mem_append_right head inside))

/-! ## Every key -/

variable {keypad : Keypad} {key : Key}

/-- A keyed expression stays keyed, unless another one is entered in its place.
A key is accepted only if its text occurs in its row. -/
theorem Keyed.keyed_press (keyed : Keyed keypad.typed) (pressed : ∀ text, key ≠ .enter text) :
    Keyed (keypad.press key).1.typed := by
  cases key with
  | digit text =>
    simp only [Keypad.press]
    split
    · rename_i occurs
      intro c member
      rcases mem_typeDigit member with before | added
      · exact keyed c before
      · exact .inl (mem_of_occursIn occurs c added)
    · exact keyed
  | operator text =>
    simp only [Keypad.press]
    split
    · rename_i occurs
      intro c member
      rcases mem_typeOperator member with before | added
      · exact keyed c before
      · exact .inr (mem_of_occursIn occurs c added)
    · exact keyed
  | delete => exact fun c member => keyed c (List.mem_of_mem_dropLast member)
  | clear => exact fun c member => nomatch member
  | toggleSign =>
    intro c member
    rcases mem_toggle member with before | rfl
    · exact keyed c before
    · exact .inr (by decide)
  | equals => exact keyed
  | enter text => exact absurd rfl (pressed text)

/-- Whatever is typed with keys is keyed. -/
theorem Keyed.keyed_pressAll (keyed : Keyed keypad.typed) (keys : List Key)
    (pressed : ∀ text, .enter text ∉ keys) : Keyed (keypad.pressAll keys).typed := by
  induction keys generalizing keypad with
  | nil => exact keyed
  | cons key rest ih =>
    have first : ∀ text, key ≠ .enter text := by
      rintro text rfl
      exact pressed text List.mem_cons_self
    exact ih (keyed.keyed_press first) fun text member =>
      pressed text (List.mem_cons_of_mem key member)

/-- Scanning drops nothing of a keyed expression, because the characters on the
keys are significant once glyphs are replaced by plain symbols. -/
theorem Keyed.flatMap_text_scan {typed : List Char} (keyed : Keyed typed) :
    (Token.scan (Token.normalize typed)).flatMap Token.text = Token.normalize typed := by
  have digits : (digitKeys.all fun c => Token.isSignificant (Token.plainSymbol c)) = true := by
    decide
  have symbols : (operatorKeys.all fun c => Token.isSignificant (Token.plainSymbol c)) = true := by
    decide
  rw [Token.flatMap_text_scan, List.filter_eq_self]
  intro c member
  obtain ⟨shown, typed, rfl⟩ := List.mem_map.mp member
  exact (keyed shown typed).elim (List.all_eq_true.mp digits shown)
    (List.all_eq_true.mp symbols shown)

/-- An empty expression is shown as zero, and evaluates to zero as well. -/
theorem evaluate_display (keypad : Keypad) : evaluate keypad.display = evaluate keypad.typed := by
  unfold display
  split
  · rename_i nothing
    have order :
        Postfix.ofTokens (Token.scan (Token.normalize ['0'])) = [.number ['0']] := by decide
    have read : Decimal.ofChars? ['0'] = some { coefficient := 0, places := 0 } := by decide
    have zero : Decimal.toFloat { coefficient := 0, places := 0 } = 0 := by decide +kernel
    have shown : numberValue ['0'] = .ok 0 := by simp only [numberValue, read, zero]
    rw [List.isEmpty_iff.mp nothing, evaluate, order, Postfix.eval, Postfix.run, Postfix.step,
      shown]
    rfl
  · rfl

/-- A key that is refused changes nothing. -/
theorem press_of_refused {error : KeyError} (refused : (keypad.press key).2 = .refused error) :
    (keypad.press key).1 = keypad := by
  cases key with
  | digit text =>
    simp only [press] at refused ⊢
    split at refused
    · cases refused
    · rename_i unknown
      rw [if_neg unknown]
  | operator text =>
    simp only [press] at refused ⊢
    split at refused
    · cases refused
    · rename_i unknown
      rw [if_neg unknown]
  | delete => cases refused
  | clear => cases refused
  | toggleSign => cases refused
  | equals => cases refused
  | enter text => cases refused

/-- Only the equals key and the clear key change the result. The sign key and
the delete key act on the expression alone. -/
theorem result_press (evaluates : key ≠ .equals) (clears : key ≠ .clear) :
    (keypad.press key).1.result = keypad.result := by
  cases key with
  | digit text =>
    simp only [press]
    split <;> rfl
  | operator text =>
    simp only [press]
    split <;> rfl
  | delete => rfl
  | clear => exact absurd rfl clears
  | toggleSign => rfl
  | equals => exact absurd rfl evaluates
  | enter text => rfl

theorem result_pressAll {keys : List Key} (evaluates : .equals ∉ keys) (clears : .clear ∉ keys) :
    (keypad.pressAll keys).result = keypad.result := by
  induction keys generalizing keypad with
  | nil => rfl
  | cons key rest ih =>
    have later := @ih (keypad.press key).1 (List.not_mem_of_not_mem_cons evaluates)
      (List.not_mem_of_not_mem_cons clears)
    refine later.trans (result_press ?_ ?_)
    · exact (List.ne_of_not_mem_cons evaluates).symm
    · exact (List.ne_of_not_mem_cons clears).symm

/-- Without the equals key, no result is shown where none has been; clearing
cannot bring one to light. -/
theorem result_pressAll_empty {keys : List Key} (none : keypad.result = "")
    (evaluates : .equals ∉ keys) : (keypad.pressAll keys).result = "" := by
  induction keys generalizing keypad with
  | nil => exact none
  | cons key rest ih =>
    refine ih ?_ (List.not_mem_of_not_mem_cons evaluates)
    by_cases clears : key = .clear
    · rw [clears]
      rfl
    · exact (result_press (List.ne_of_not_mem_cons evaluates).symm clears).trans none

theorem pressAll_append_cons (keypad : Keypad) (before after : List Key) (key : Key) :
    keypad.pressAll (before ++ key :: after) =
      ((keypad.pressAll before).press key).1.pressAll after := by
  rw [pressAll, List.foldl_append, List.foldl_cons]
  rfl

/-- What is shown is what is evaluated, after any keys on a new keypad. Scanning
drops nothing of the expression, and the display has the same outcome as the
expression. A refused key leaves the keypad as it is, and the equals key leaves
the expression as it is. The result is the text of the outcome that the
expression had when the equals key was pressed last, and it is empty if the
equals key has not been pressed since the keypad was new or cleared.

Proof: being keyed is kept by every key (`Keyed.keyed_press`), and all
characters of keys are significant, so the tokens of a keyed expression spell
all of it. The keys behind the last equals key do not change the result
(`result_pressAll`). -/
theorem shows_what_it_evaluates (keys : List Key) (pressed : ∀ text, Key.enter text ∉ keys) :
    let keypad := pressAll {} keys
    (Token.scan (Token.normalize keypad.typed)).flatMap Token.text = Token.normalize keypad.typed ∧
    evaluate keypad.display = evaluate keypad.typed ∧
    (∀ key error, (keypad.press key).2 = .refused error → (keypad.press key).1 = keypad) ∧
    (keypad.press .equals).1.typed = keypad.typed ∧
    (∀ before after, keys = before ++ .equals :: after → .equals ∉ after → .clear ∉ after →
      keypad.result = outcomeText (evaluate (pressAll {} before).typed)) ∧
    (∀ before after, keys = before ++ .clear :: after → .equals ∉ after → keypad.result = "") ∧
    (.equals ∉ keys → keypad.result = "") := by
  intro keypad
  have empty : Keyed ({} : Keypad).typed := List.forall_mem_nil _
  have keyed : Keyed keypad.typed := empty.keyed_pressAll keys pressed
  refine ⟨keyed.flatMap_text_scan, keypad.evaluate_display, fun key error => press_of_refused, rfl,
    ?_, ?_, result_pressAll_empty rfl⟩
  · rintro before after rfl evaluates clears
    exact (congrArg Keypad.result (pressAll_append_cons {} before after .equals)).trans
      (result_pressAll evaluates clears)
  · rintro before after rfl evaluates
    exact (congrArg Keypad.result (pressAll_append_cons {} before after .clear)).trans
      (result_pressAll_empty rfl evaluates)

/-- Keys that change the sign of a factor before it is evaluated, and then take
the factor away. -/
def signedKeys : List Key :=
  [.digit ['7'], .operator ['×'], .digit ['6'], .toggleSign, .equals, .digit ['x'], .delete]

/-- The result is that of the whole product, although its second factor is gone
and a key has been refused. -/
theorem signedKeys_show_product :
    (∀ text, Key.enter text ∉ signedKeys) ∧ (pressAll {} signedKeys).typed = ['7', '×', '-'] ∧
      (pressAll {} signedKeys).result = outcomeText (evaluate ['7', '×', '-', '6']) := by
  have pressed : ∀ text, Key.enter text ∉ signedKeys := by simp [signedKeys]
  obtain ⟨_, _, _, _, result, _⟩ := shows_what_it_evaluates signedKeys pressed
  exact ⟨pressed, by decide, result [.digit ['7'], .operator ['×'], .digit ['6'], .toggleSign]
    [.digit ['x'], .delete] rfl (by decide) (by decide)⟩

end Reckon.Keypad
