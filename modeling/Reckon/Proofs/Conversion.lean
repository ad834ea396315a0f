import Mathlib.Data.List.Perm.Basic
import Reckon.Tree

/-!
# What the converter does

Three facts about putting tokens in postfix order, each for any tokens and
whatever is held.

*Trees.* Tokens that read as a tree at some level come out in the postorder of
the tree, except for the operators at its end, which are held on top until
something releases them (`convert_of_reads`). The condition is that nothing held
binds as tightly as the level, so that the tree is the right operand of whatever
waits below.

*Conservation.* What comes out is a rearrangement of the operators held and of
the numbers and operators among the tokens (`convert_perm`).

*Parentheses at the ends.* Opening parentheses in front and closing ones behind
change nothing (`ofTokens_surround`): an opening parenthesis at the bottom of
what is held is never seen, except by a closing one that would otherwise find
nothing.
-/

namespace Reckon.Postfix

variable {held : List Held} {level : Nat}

theorem operators_map (ops : List Operator) :
    operators (ops.map .operator) = ops.map .operator := by
  induction ops with
  | nil => rfl
  | cons op rest ih => exact congrArg (Token.operator op :: ·) ih

theorem operators_append (first second : List Held) :
    operators (first ++ second) = operators first ++ operators second :=
  List.filterMap_append

/-! ## Trees -/

/-- The operator held last, if there is one on top, binds less tightly than a
level. An opening parenthesis on top, or nothing, is below every level. -/
def Below (level : Nat) (held : List Held) : Prop :=
  ∀ op later, held = .operator op :: later → op.precedence < level

theorem Below.mono {higher : Nat} (below : Below level held) (le : level ≤ higher) :
    Below higher held :=
  fun op later same => Nat.lt_of_lt_of_le (below op later same) le

/-- An incoming operator meets nothing that gives way to it: what is on top
binds less tightly, or is not an operator. -/
theorem Below.takeWhile_eq_nil {op : Operator} (below : Below op.precedence held) :
    held.takeWhile (Held.yieldsTo op) = [] := by
  cases held with
  | nil => rfl
  | cons first later =>
    cases first with
    | opening => rfl
    | operator top =>
      have less := below top later rfl
      simp [Held.yieldsTo, Nat.not_le.mpr less]

/-- An incoming operator leaves what does not give way to it, which here is all
that is held. -/
theorem Below.dropWhile_eq_self {op : Operator} (below : Below op.precedence held) :
    held.dropWhile (Held.yieldsTo op) = held := by
  have parts := @List.takeWhile_append_dropWhile _ (Held.yieldsTo op) held
  rwa [below.takeWhile_eq_nil, List.nil_append] at parts

/-- Operators of a level give way to an operator of that level, as those of a
left operand do to the operator behind it. -/
theorem yieldsTo_of_mem (op : Operator) (ops : List Operator)
    (tight : ∀ other ∈ ops, op.precedence ≤ other.precedence) :
    ∀ item ∈ ops.map Held.operator, item.yieldsTo op = true := by
  intro item member
  obtain ⟨other, present, rfl⟩ := List.mem_map.mp member
  simpa [Held.yieldsTo] using tight other present

/-- An operator releases exactly the operators above what is below its level,
and is held itself. This is how the end of a left operand comes out. -/
theorem convert_operator (op : Operator) (ops : List Operator) (rest : List Token)
    (tight : ∀ other ∈ ops, op.precedence ≤ other.precedence) (below : Below op.precedence held) :
    convert (ops.map .operator ++ held) (.operator op :: rest) =
      ops.map .operator ++ convert (.operator op :: held) rest := by
  have yields := yieldsTo_of_mem op ops tight
  simp only [convert, released, hold, List.takeWhile_append_of_pos yields,
    List.dropWhile_append_of_pos yields, below.takeWhile_eq_nil, below.dropWhile_eq_self,
    List.append_nil, operators_map]

/-- A closing parenthesis releases the operators above its opening one and drops
that; what was held before the group is held again. -/
theorem convert_closing (ops : List Operator) (rest : List Token) :
    convert (ops.map .operator ++ .opening :: held) (.closing :: rest) =
      ops.map .operator ++ convert held rest := by
  have inside : ∀ item ∈ ops.map Held.operator, (decide (item ≠ .opening)) = true := by
    intro item member
    obtain ⟨op, _, rfl⟩ := List.mem_map.mp member
    rfl
  simp only [convert, released, hold, List.takeWhile_append_of_pos inside,
    List.dropWhile_append_of_pos inside]
  simp [operators_map]

/-- Tokens that read as a tree come out in its postorder, up to the operators at
the end of it, which are held on top of what was held before.

Proof: induction on the reading. At an operator, the operators left from the
left operand are just those that it releases; its own precedence then is what
the right operand has to exceed. A group starts above an opening parenthesis,
which is below every level, and its closing parenthesis releases the rest. -/
theorem convert_of_reads {tokens : List Token} {tree : Tree}
    (reads : Tree.Reads level tokens tree) :
    ∀ held, Below level held → ∃ (released : List Token) (ops : List Operator),
      tree.postorder = released ++ ops.map .operator ∧
      (∀ op ∈ ops, level ≤ op.precedence) ∧
      ∀ rest, convert held (tokens ++ rest) =
        released ++ convert (ops.map .operator ++ held) rest := by
  induction reads with
  | number text =>
    intro held _
    exact ⟨[.number text], [], rfl, by simp, fun rest => rfl⟩
  | @group tokens tree _ ih =>
    intro held _
    have bottom : Below 1 (.opening :: held) := by
      intro op later same
      cases same
    obtain ⟨released, ops, order, _, run⟩ := ih (.opening :: held) bottom
    refine ⟨tree.postorder, [], by simp, by simp, ?_⟩
    intro rest
    calc convert held (.opening :: (tokens ++ [.closing]) ++ rest)
        = convert (.opening :: held) (tokens ++ .closing :: rest) := by
          simp [convert, Postfix.released, hold]
      _ = released ++ (ops.map .operator ++ convert held rest) := by
          rw [run, convert_closing]
      _ = tree.postorder ++ convert held rest := by
          rw [order, List.append_assoc]
  | descend _ ih =>
    intro held below
    obtain ⟨released, ops, order, tight, run⟩ := ih held (below.mono (Nat.le_succ _))
    exact ⟨released, ops, order, fun op member => Nat.le_of_succ_le (tight op member), run⟩
  | @operation op before after left right _ _ leftIh rightIh =>
    intro held below
    obtain ⟨leftReleased, leftOps, leftOrder, leftTight, leftRun⟩ := leftIh held below
    have above : Below (op.precedence + 1) (.operator op :: held) := by
      intro top later same
      cases same
      exact Nat.lt_succ_self _
    obtain ⟨rightReleased, rightOps, rightOrder, rightTight, rightRun⟩ := rightIh _ above
    refine ⟨left.postorder ++ rightReleased, rightOps ++ [op], ?_, ?_, ?_⟩
    · simp [Tree.postorder, rightOrder]
    · intro other member
      rcases List.mem_append.mp member with right | last
      · exact Nat.le_of_succ_le (rightTight other right)
      · obtain rfl := List.mem_singleton.mp last
        exact Nat.le_refl _
    · intro rest
      calc convert held (before ++ .operator op :: after ++ rest)
          = leftReleased ++ convert (leftOps.map .operator ++ held)
              (.operator op :: (after ++ rest)) := by
            rw [List.append_assoc, leftRun, List.cons_append]
        _ = left.postorder ++ convert (.operator op :: held) (after ++ rest) := by
            rw [convert_operator op leftOps _ leftTight below, leftOrder, List.append_assoc]
        _ = left.postorder ++ rightReleased ++
              convert ((rightOps ++ [op]).map .operator ++ held) rest := by
            rw [rightRun]
            simp

/-- An expression that reads as a tree comes out in the postorder of the tree.
It starts with nothing held, and what it leaves there is released at the end. -/
theorem ofTokens_of_reads {tokens : List Token} {tree : Tree} (reads : Tree.Reads 1 tokens tree) :
    ofTokens tokens = tree.postorder := by
  have bottom : Below 1 [] := by
    intro op later same
    cases same
  obtain ⟨released, ops, order, _, run⟩ := convert_of_reads reads [] bottom
  have whole := run []
  rw [List.append_nil, List.append_nil] at whole
  rw [ofTokens, whole, order]
  exact congrArg (released ++ ·) (operators_map ops)

/-! ## Conservation -/

/-- The tokens that reach the output: all but the parentheses. -/
def isKept : Token → Bool
  | .number _ => true
  | .operator _ => true
  | .opening => false
  | .closing => false

/-- Back to an opening parenthesis, what a closing one releases and what it
leaves are all the operators held, even where there is no opening one. -/
theorem operators_closing (held : List Held) :
    operators (held.takeWhile (· ≠ .opening)) ++
      operators ((held.dropWhile (· ≠ .opening)).drop 1) = operators held := by
  induction held with
  | nil => rfl
  | cons item later ih =>
    cases item with
    | opening => rfl
    | operator op => exact congrArg (Token.operator op :: ·) ih

/-- One token adds itself to what is released and held, if it is kept. In each
case what was held is cut in two and put together again. -/
theorem released_perm (held : List Held) (token : Token) :
    (released held token ++ operators (hold held token)).Perm
      (operators held ++ [token].filter isKept) := by
  cases token with
  | number text =>
    have swapped :
        ([Token.number text] ++ operators held).Perm (operators held ++ [.number text]) :=
      List.perm_append_comm
    exact swapped
  | operator op =>
    have parts : operators (held.takeWhile (Held.yieldsTo op)) ++
        operators (held.dropWhile (Held.yieldsTo op)) = operators held := by
      rw [← operators_append, List.takeWhile_append_dropWhile]
    have lifted : (operators (held.takeWhile (Held.yieldsTo op)) ++
        Token.operator op :: operators (held.dropWhile (Held.yieldsTo op))).Perm
          (.operator op :: operators held) := by
      rw [← parts]
      exact List.perm_middle
    have swapped :
        ([Token.operator op] ++ operators held).Perm (operators held ++ [.operator op]) :=
      List.perm_append_comm
    exact lifted.trans swapped
  | opening => exact List.Perm.of_eq (List.append_nil _).symm
  | closing =>
    have parts := operators_closing held
    exact List.Perm.of_eq (parts.trans (List.append_nil _).symm)

/-- The output holds the operators held and what is kept of the tokens, each as
often as it came in. By induction, with one token at a time from
`released_perm`. -/
theorem convert_perm (tokens : List Token) (held : List Held) :
    (convert held tokens).Perm (operators held ++ tokens.filter isKept) := by
  induction tokens generalizing held with
  | nil => simp [convert]
  | cons token rest ih =>
    have later : (released held token ++ convert (hold held token) rest).Perm
        (released held token ++ (operators (hold held token) ++ rest.filter isKept)) :=
      (ih (hold held token)).append_left _
    have now := (released_perm held token).append_right (rest.filter isKept)
    rw [← List.append_assoc] at later
    have whole := later.trans now
    rwa [List.append_assoc, ← List.filter_append] at whole

/-- Putting tokens in postfix order rearranges their numbers and operators and
drops the parentheses. -/
theorem ofTokens_perm (tokens : List Token) : (ofTokens tokens).Perm (tokens.filter isKept) :=
  convert_perm tokens []

/-! ## Parentheses at the ends -/

theorem operators_append_opening (held : List Held) :
    operators (held ++ [Held.opening]) = operators held := by
  rw [operators_append]
  exact List.append_nil _

/-- Below everything that is held, an opening parenthesis makes no difference to
an operator, which stops at a parenthesis as it stops at the bottom. -/
theorem yields_append_opening (held : List Held) (op : Operator) :
    (held ++ [Held.opening]).takeWhile (Held.yieldsTo op) = held.takeWhile (Held.yieldsTo op) ∧
      (held ++ [Held.opening]).dropWhile (Held.yieldsTo op) =
        held.dropWhile (Held.yieldsTo op) ++ [Held.opening] := by
  induction held with
  | nil => exact ⟨rfl, rfl⟩
  | cons item later ih =>
    by_cases yields : item.yieldsTo op = true <;> simp [yields, ih]

/-- A closing parenthesis that finds no opening one above the bottom takes the
one at the bottom, if it is there, and releases the same either way. -/
theorem closes_append_opening (held : List Held) :
    (held ++ [Held.opening]).takeWhile (· ≠ Held.opening) = held.takeWhile (· ≠ Held.opening) ∧
      ((held ++ [Held.opening]).dropWhile (· ≠ Held.opening)).drop 1 ∈
        [(held.dropWhile (· ≠ Held.opening)).drop 1,
          (held.dropWhile (· ≠ Held.opening)).drop 1 ++ [Held.opening]] := by
  induction held with
  | nil => simp
  | cons item later ih =>
    cases item with
    | opening => simp
    | operator op => simpa using ih

/-- An opening parenthesis below everything held does not change the output. A
closing one may take it away; either way the same operators are released, and
the induction goes on with or without it. -/
theorem convert_append_opening (tokens : List Token) (held : List Held) :
    convert (held ++ [Held.opening]) tokens = convert held tokens := by
  induction tokens generalizing held with
  | nil => exact operators_append_opening held
  | cons token rest ih =>
    cases token with
    | number text => exact congrArg (Token.number text :: ·) (ih held)
    | operator op =>
      obtain ⟨taken, left⟩ := yields_append_opening held op
      simp only [convert, released, hold, taken, left]
      exact congrArg _ (ih (.operator op :: held.dropWhile (Held.yieldsTo op)))
    | opening => exact ih (.opening :: held)
    | closing =>
      obtain ⟨taken, left⟩ := closes_append_opening held
      simp only [convert, released, hold, taken]
      rcases List.mem_pair.mp left with same | deeper
      · rw [same]
      · rw [deeper, ih]

/-- A closing parenthesis at the end releases what would be released anyway when
the tokens are over. -/
theorem convert_append_closing (tokens : List Token) (held : List Held) :
    convert held (tokens ++ [Token.closing]) = convert held tokens := by
  induction tokens generalizing held with
  | nil => exact operators_closing held
  | cons token rest ih => exact congrArg (released held token ++ ·) (ih (hold held token))

/-- Opening parentheses in front and closing ones behind do not change the
output, whether or not they match anything: the two previous facts, one
parenthesis at a time. -/
theorem ofTokens_surround (tokens : List Token) (i j : Nat) :
    ofTokens (List.replicate i .opening ++ tokens ++ List.replicate j .closing) =
      ofTokens tokens := by
  induction j with
  | zero =>
    rw [List.replicate_zero, List.append_nil]
    induction i with
    | zero => rfl
    | succ i ih =>
      rw [List.replicate_succ, ← ih]
      exact convert_append_opening _ []
  | succ j ih =>
    rw [List.replicate_succ', ← List.append_assoc, ofTokens, convert_append_closing]
    exact ih

end Reckon.Postfix
