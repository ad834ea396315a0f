import Mathlib.Data.List.Forall2
import Reckon.Proofs.Conservation

/-!
# What postfix evaluation computes

A token list in postfix order need not list a single tree. Evaluation accepts
exactly the lists that consist of the postorders of any number of trees, one
behind another, all numbers being plain. The trees are then determined by the
list (`listing_injective`): reading it with trees in the place of values gives
them back. Only the last one matters to the value.

The values on the stack are those of the trees that are complete so far
(`Built`). So where a run stops, there are as many values on the stack as
complete trees in front of the token, and everything before that token is
accepted by itself.
-/

namespace Reckon

namespace Tree

/-- All numbers of a tree are plain decimals. Then, and only then, the tree
stands for a double. -/
def IsPlain (tree : Tree) : Prop :=
  ∀ text ∈ tree.numbers, Decimal.IsPlain text

instance (tree : Tree) : Decidable tree.IsPlain :=
  inferInstanceAs (Decidable (∀ text ∈ tree.numbers, Decimal.IsPlain text))

/-- The postorders of trees, one behind another. -/
def listing (forest : List Tree) : List Token :=
  forest.flatMap postorder

theorem listing_cons (tree : Tree) (others : List Tree) :
    listing (tree :: others) = tree.postorder ++ listing others :=
  List.flatMap_cons

/-- A tree that stands for a double has plain numbers only, by induction on how
it stands for it. -/
theorem Denotes.isPlain_of_denotes {tree : Tree} {value : Float} (denotes : tree.Denotes value) :
    tree.IsPlain := by
  induction denotes with
  | @number text decimal read =>
    intro other member
    obtain rfl := List.mem_singleton.mp member
    exact (Decimal.isSome_ofChars?_iff other).mp (Option.isSome_of_eq_some read)
  | operation _ _ leftIh rightIh =>
    intro text member
    exact (List.mem_append.mp member).elim (leftIh text) (rightIh text)

/-- A tree with plain numbers only has the value that it stands for, as none of
its numbers is unreadable. -/
theorem IsPlain.exists_value {tree : Tree} (plain : tree.IsPlain) :
    ∃ value, tree.Denotes value ∧ tree.value = .ok value := by
  apply tree.value_of_readable
  apply List.find?_eq_none.mpr
  intro text member
  simpa using plain text member

/-! ## Reading a listing back -/

/-- The trees on a stack after some tokens. An operator joins the two topmost
trees. This is the run of an evaluation with trees in the place of values, and
it cannot fail: a token that does not fit is passed over. -/
def regrow : List Tree → List Token → List Tree
  | stack, [] => stack
  | stack, .number text :: rest => regrow (.number text :: stack) rest
  | right :: left :: stack, .operator op :: rest => regrow (.operation op left right :: stack) rest
  | stack, _ :: rest => regrow stack rest

/-- Reading the postorder of a tree puts the tree onto the stack. The right
operand is read on top of the left one, which is why any stack has to be
allowed. -/
theorem regrow_postorder (tree : Tree) (stack : List Tree) (rest : List Token) :
    regrow stack (tree.postorder ++ rest) = regrow (tree :: stack) rest := by
  induction tree generalizing stack rest with
  | number text => simp [postorder, regrow]
  | operation op left right leftIh rightIh =>
    rw [postorder, List.append_assoc, List.append_assoc, leftIh, rightIh]
    simp [regrow]

/-- Reading a listing puts its trees onto the stack, the last one on top. -/
theorem regrow_listing (forest stack : List Tree) :
    regrow stack (listing forest) = forest.reverse ++ stack := by
  induction forest generalizing stack with
  | nil => simp [listing, regrow]
  | cons tree rest ih =>
    rw [listing_cons, regrow_postorder, ih, List.reverse_cons, List.append_assoc]
    rfl

/-- No two forests have the same listing, because reading a listing gives back
its forest. -/
theorem listing_injective : Function.Injective listing := by
  intro first second same
  have read := congrArg (regrow []) same
  simpa [regrow_listing] using read

end Tree

namespace Postfix

/-! ## Runs -/

/-- What a run has made of the tokens so far: they are the listing of these
trees, whose values are on the stack, that of the last tree on top. -/
structure Built (tokens : List Token) (forest : List Tree) (stack : List Float) : Prop where
  listed : Tree.listing forest = tokens
  values : List.Forall₂ Tree.Denotes forest.reverse stack

variable {tokens before : List Token} {forest : List Tree} {stack final : List Float}
  {token : Token} {error : EvalError}

/-- There are as many values as complete trees, which is why the number of
values that an error reports is a number of trees. -/
theorem Built.length_eq (built : Built tokens forest stack) : stack.length = forest.length := by
  rw [← built.values.length_eq, List.length_reverse]

/-- All trees that are complete have plain numbers only, since each has a value
on the stack. -/
theorem Built.trees_are_plain (built : Built tokens forest stack) :
    ∀ tree ∈ forest, tree.IsPlain := by
  intro tree member
  obtain ⟨position, present, rfl⟩ := List.mem_iff_getElem.mp (List.mem_reverse.mpr member)
  have value := built.values.get present (built.values.length_eq ▸ present)
  exact value.isPlain_of_denotes

/-- A token that is processed completes a tree: a number is one, and an operator
joins the last two. If the step succeeds, their values were on the stack, so the
last two trees are there as well. -/
theorem Built.exists_built_step (built : Built before forest stack)
    (done : step stack token = .ok final) :
    ∃ grown, Built (before ++ [token]) grown final := by
  cases token with
  | number text =>
    cases read : Decimal.ofChars? text with
    | none => simp [Postfix.step, numberValue, read, Except.map] at done
    | some decimal =>
      obtain rfl : decimal.toFloat :: stack = final := by
        simpa [Postfix.step, numberValue, read, Except.map] using done
      refine ⟨forest ++ [.number text], ?_, ?_⟩
      · simp [Tree.listing, ← built.listed, Tree.postorder]
      · rw [List.reverse_concat]
        exact .cons (.number read) built.values
  | operator op =>
    obtain ⟨listed, values⟩ := built
    generalize turned : forest.reverse = trees at values
    cases values with
    | nil => cases done
    | @cons right second rest others rightDenotes values =>
      cases values with
      | nil => cases done
      | @cons left first earlier below leftDenotes values =>
        obtain rfl : op.apply first second :: below = final := Except.ok.inj done
        have ordered : forest = earlier.reverse ++ [left, right] := by
          rw [← List.reverse_reverse forest, turned]
          simp
        refine ⟨earlier.reverse ++ [.operation op left right], ?_, ?_⟩
        · simp [Tree.listing, ← listed, ordered, Tree.postorder]
        · rw [List.reverse_concat, List.reverse_reverse]
          exact .cons (.operation leftDenotes rightDenotes) values
  | opening => cases done
  | closing => cases done

/-- A run that succeeds has read the listing of some trees. The induction
carries the trees along, one step after another. -/
theorem Built.exists_built_run (built : Built before forest stack)
    (done : run stack tokens = .ok final) :
    ∃ grown, Built (before ++ tokens) grown final := by
  induction tokens generalizing before forest stack with
  | nil =>
    obtain rfl : stack = final := Except.ok.inj done
    exact ⟨forest, by rwa [List.append_nil]⟩
  | cons token rest ih =>
    rw [Postfix.run] at done
    split at done
    · rename_i next stepped
      obtain ⟨grown, later⟩ := built.exists_built_step stepped
      have whole := ih later done
      rwa [List.append_assoc] at whole
    · cases done

/-- The listing of trees with plain numbers only puts their values onto the
stack, whatever was there and whatever follows. -/
theorem run_listing (forest : List Tree) (plain : ∀ tree ∈ forest, tree.IsPlain) :
    ∃ values, List.Forall₂ Tree.Denotes forest.reverse values ∧
      ∀ stack rest, run stack (Tree.listing forest ++ rest) = run (values ++ stack) rest := by
  induction forest with
  | nil => exact ⟨[], .nil, fun _ _ => rfl⟩
  | cons tree others ih =>
    obtain ⟨value, denotes, known⟩ := (plain tree List.mem_cons_self).exists_value
    have remaining : ∀ other ∈ others, other.IsPlain :=
      fun other member => plain other (List.mem_cons_of_mem tree member)
    obtain ⟨values, follow, later⟩ := ih remaining
    refine ⟨values ++ [value], ?_, ?_⟩
    · rw [List.reverse_cons]
      exact List.rel_append follow (.cons denotes .nil)
    · intro stack rest
      rw [Tree.listing_cons, List.append_assoc, Tree.run_postorder, known, List.append_assoc]
      exact later (value :: stack) rest

/-- A run reads one part of the tokens after another, and an error in the first
part is final. -/
theorem run_append (stack : List Float) (first second : List Token) :
    run stack (first ++ second) = (run stack first).bind (run · second) := by
  induction first generalizing stack with
  | nil => rfl
  | cons token rest ih =>
    rw [List.cons_append, run, run]
    cases step stack token with
    | ok next => exact ih next
    | error error => rfl

/-- A run that fails stops at some token, before which it succeeds. What follows
that token has not been looked at. -/
theorem exists_stop (stopped : run stack tokens = .error error) :
    ∃ before token after middle, tokens = before ++ token :: after ∧
      run stack before = .ok middle ∧ step middle token = .error error := by
  induction tokens generalizing stack with
  | nil => cases stopped
  | cons token rest ih =>
    rw [run] at stopped
    split at stopped
    · rename_i next stepped
      obtain ⟨before, last, after, middle, rfl, done, refused⟩ := ih stopped
      exact ⟨token :: before, last, after, middle, rfl, by rw [run, stepped]; exact done, refused⟩
    · rename_i reason here
      cases stopped
      exact ⟨[], token, rest, stack, rfl, rfl, here⟩

/-- A run that succeeds has succeeded at every point before. -/
theorem exists_run_of_append {first second : List Token}
    (done : run stack (first ++ second) = .ok final) : ∃ middle, run stack first = .ok middle := by
  rw [run_append] at done
  cases early : run stack first with
  | ok middle => exact ⟨middle, rfl⟩
  | error reason =>
    rw [early] at done
    cases done

/-! ## Evaluation -/

/-- Evaluation fails exactly if the run does, and for the same reason: what it
does with the stack in the end cannot fail. -/
theorem eval_eq_error_iff (tokens : List Token) (error : EvalError) :
    eval tokens = .error error ↔ run [] tokens = .error error := by
  unfold eval
  cases run [] tokens <;> simp [Except.map]

theorem built_nil : Built [] [] [] :=
  ⟨rfl, .nil⟩

theorem run_listing_nil (forest : List Tree) (plain : ∀ tree ∈ forest, tree.IsPlain) :
    ∃ values, List.Forall₂ Tree.Denotes forest.reverse values ∧
      run [] (Tree.listing forest) = .ok values := by
  obtain ⟨values, follow, pushed⟩ := run_listing forest plain
  have whole := pushed [] []
  rw [List.append_nil, List.append_nil] at whole
  exact ⟨values, follow, whole⟩

/-- Evaluation in postfix order, exactly. It succeeds if and only if the tokens
are the postorders of any number of trees with plain numbers, one behind
another. No other trees have this listing. There are as many of them as there
are more numbers than operators, and the value is that of the last one, whatever
the others are, or zero if there is none.

Otherwise there is a first token that is refused: a number that is not plain, a
parenthesis, or an operator that has at most one complete tree before it, which
is the count it reports. Up to any point before this token evaluation succeeds,
and whatever begins with the tokens up to this one is refused for the same
reason.

Proof: `Built` is what a run preserves, so a run that succeeds has built a
forest, and `run_listing` is the converse. The forest is unique because a
listing can be read back. For the errors, the run is split where it stops;
`Built` before that point gives the number of values, which `Stops` reports. -/
theorem eval_exact (tokens : List Token) :
    ((∃ value, eval tokens = .ok value) ↔
      ∃ forest, Tree.listing forest = tokens ∧ ∀ tree ∈ forest, tree.IsPlain) ∧
    (∀ forest, Tree.listing forest = tokens → (∀ tree ∈ forest, tree.IsPlain) →
      (∀ other, Tree.listing other = tokens → other = forest) ∧
      Token.numbers tokens = Token.operators tokens + forest.length ∧
      (forest = [] → eval tokens = .ok 0) ∧
      ∀ earlier last, forest = earlier ++ [last] →
        ∃ value, last.Denotes value ∧ eval tokens = .ok value) ∧
    ∀ error, eval tokens = .error error →
      ∃ before token after forest, tokens = before ++ token :: after ∧
        Tree.listing forest = before ∧ (∀ tree ∈ forest, tree.IsPlain) ∧
        Stops forest.length token error ∧
        (∀ shorter, shorter <+: before → ∃ value, eval shorter = .ok value) ∧
        ∀ continuation, eval (before ++ token :: continuation) = .error error := by
  refine ⟨?_, ?_, ?_⟩
  · rw [exists_eval_iff]
    constructor
    · rintro ⟨final, done⟩
      obtain ⟨forest, built⟩ := built_nil.exists_built_run done
      exact ⟨forest, built.listed, built.trees_are_plain⟩
    · rintro ⟨forest, rfl, plain⟩
      obtain ⟨values, _, done⟩ := run_listing_nil forest plain
      exact ⟨values, done⟩
  · rintro forest rfl plain
    obtain ⟨values, follow, done⟩ := run_listing_nil forest plain
    have counted := (run_spec done).2.1
    refine ⟨fun other same => Tree.listing_injective same, ?_, ?_, ?_⟩
    · rw [← follow.length_eq, List.length_reverse] at counted
      simpa [Nat.add_comm] using counted.symm
    · rintro rfl
      rfl
    · rintro earlier last rfl
      rw [List.reverse_concat] at follow
      obtain ⟨value, others, denotes, _, rfl⟩ := List.forall₂_cons_left_iff.mp follow
      exact ⟨value, denotes, by rw [eval, done]; rfl⟩
  · intro error refused
    obtain ⟨before, token, after, middle, rfl, done, here⟩ :=
      exists_stop ((eval_eq_error_iff tokens error).mp refused)
    obtain ⟨forest, built⟩ := built_nil.exists_built_run done
    refine ⟨before, token, after, forest, rfl, built.listed, built.trees_are_plain, ?_, ?_, ?_⟩
    · exact built.length_eq ▸ (step_eq_error_iff middle token error).mp here
    · rintro shorter ⟨rest, rfl⟩
      exact (exists_eval_iff shorter).mpr (exists_run_of_append done)
    · intro continuation
      rw [eval_eq_error_iff, run_append, done]
      simp only [Except.bind, run, here]

/-- The trees of `1+2` and of `7`. -/
def leftover : List Tree :=
  [.operation .add (.number ['1']) (.number ['2']), .number ['7']]

/-- In `1 2 + 7` the sum is left over, and the value is that of the last number.
Nothing is reported. -/
theorem leftover_is_ignored :
    (∀ tree ∈ leftover, tree.IsPlain) ∧
      Tree.listing leftover =
        [.number ['1'], .number ['2'], .operator .add, .number ['7']] ∧
      ∃ value, Tree.Denotes (.number ['7']) value ∧ eval (Tree.listing leftover) = .ok value := by
  have plain : ∀ tree ∈ leftover, tree.IsPlain := by decide
  obtain ⟨_, exact, _⟩ := eval_exact (Tree.listing leftover)
  obtain ⟨_, _, _, value⟩ := exact leftover rfl plain
  exact ⟨plain, rfl, value [.operation .add (.number ['1']) (.number ['2'])] _ rfl⟩

end Postfix

end Reckon
