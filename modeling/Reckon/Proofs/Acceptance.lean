import Mathlib.Data.List.Chain
import Reckon.Proofs.Meaning

/-!
# Which expressions have a value

Postfix order forgets where the operands of an operator stood, so an operator
that lacks an operand inside its group may find one outside. That this never
goes unnoticed is a matter of counting.

Where no operand directly follows another, a number is followed by an operator
before the next number comes, so there is at most one number more than there are
operators (`numbers_le`), and one more only if operands and operators alternate
throughout. Such tokens read as an expression once the missing parentheses are
added at the ends (`readableInside_of_balance`): reading goes from left to
right, keeping what stands before the operand in each open group.

A run that succeeds leaves one value for each number and takes one away for each
operator, and any token leaves at least one (`run_spec`). So success needs one
number more than operators, unless there is nothing to evaluate.
-/

namespace Reckon

namespace Token

/-- The token is a number. Counting uses Boolean tests, so that the library's
`countP` and `filter` apply to tokens directly. -/
def isNumber : Token → Bool
  | .number _ => true
  | _ => false

/-- The token is an operator. -/
def isOperator : Token → Bool
  | .operator _ => true
  | _ => false

/-- An operand may begin with the token. -/
def beginsOperand : Token → Bool
  | .number _ => true
  | .opening => true
  | _ => false

/-- An operand may end with the token. -/
def endsOperand : Token → Bool
  | .number _ => true
  | .closing => true
  | _ => false

/-- The number of numbers among tokens. -/
def numbers (tokens : List Token) : Nat := tokens.countP isNumber

/-- The number of operators among tokens. -/
def operators (tokens : List Token) : Nat := tokens.countP isOperator

theorem numbers_cons (token : Token) (rest : List Token) :
    numbers (token :: rest) = numbers rest + if token.isNumber then 1 else 0 :=
  List.countP_cons

theorem operators_cons (token : Token) (rest : List Token) :
    operators (token :: rest) = operators rest + if token.isOperator then 1 else 0 :=
  List.countP_cons

/-- No operand directly follows another: behind a number or a closing
parenthesis there is no number and no opening parenthesis. This is a condition
on neighbours only, so it passes to every part of the tokens. -/
def Separate (tokens : List Token) : Prop :=
  tokens.IsChain fun first second => ¬(first.endsOperand = true ∧ second.beginsOperand = true)

instance (tokens : List Token) : Decidable (Separate tokens) :=
  inferInstanceAs (Decidable (List.IsChain _ _))

/-- The tokens do not begin with an operand, as what stands behind an operand
must not. The empty list continues anything. -/
def Continues (tokens : List Token) : Prop :=
  ∀ first later, tokens = first :: later → first.beginsOperand = false

/-- After the end of an operand, separate tokens do not begin with another. This
is the only consequence of separateness that the counting arguments need. -/
theorem Separate.continues_of_endsOperand {first : Token} {later : List Token}
    (separate : Separate (first :: later)) (ended : first.endsOperand = true) :
    Continues later := by
  rintro second rest rfl
  have apart := (List.isChain_cons_cons.mp separate).1
  simpa [ended] using apart

/-- Separate tokens contain at most one number more than operators, and no more
numbers than operators if they go on after an operand.

The two statements are proved together, by induction on the tokens. A number or
a closing parenthesis turns either of them into the second statement about what
follows, an operator or an opening parenthesis into the first. -/
theorem numbers_le (tokens : List Token) (separate : Separate tokens) :
    numbers tokens ≤ operators tokens + 1 ∧
      (Continues tokens → numbers tokens ≤ operators tokens) := by
  induction tokens with
  | nil => simp [numbers]
  | cons token rest ih =>
    obtain ⟨free, continued⟩ := ih separate.tail
    rw [numbers_cons, operators_cons]
    cases token with
    | number text =>
      have after := continued (separate.continues_of_endsOperand rfl)
      refine ⟨Nat.succ_le_succ after, ?_⟩
      intro follows
      exact nomatch follows _ _ rfl
    | operator op => exact ⟨Nat.le_succ_of_le free, fun _ => free⟩
    | opening =>
      refine ⟨free, ?_⟩
      intro follows
      exact nomatch follows _ _ rfl
    | closing =>
      have after := continued (separate.continues_of_endsOperand rfl)
      exact ⟨Nat.le_succ_of_le after, fun _ => after⟩

end Token

namespace Tree

/-- Some tree reads from the tokens at a level. Which tree it is does not matter
here, because every tree without malformed numbers has a value. -/
def Readable (level : Nat) (tokens : List Token) : Prop :=
  ∃ tree, Reads level tokens tree

/-- An operand is an expression: the two levels of operators are passed through
by `descend`. -/
theorem Readable.readable_of_operand {tokens : List Token} (operand : Readable innermost tokens) :
    Readable 1 tokens := by
  obtain ⟨tree, reads⟩ := operand
  exact ⟨tree, .descend (.descend reads)⟩

/-- A group is an operand, whatever the level of the expression inside it. -/
theorem Readable.readable_surround {tokens : List Token} (expression : Readable 1 tokens) :
    Readable innermost (.opening :: (tokens ++ [.closing])) := by
  obtain ⟨tree, reads⟩ := expression
  exact ⟨tree, .group reads⟩

/-- An expression can be continued by any operator and an operand. An additive
operator takes the whole expression as its left operand, a multiplicative one
only its last term.

In the second case the expression has to be taken apart. It is a single term,
which becomes the left factor, or its last additive operation keeps its left
operand and takes the new product as its right one. -/
theorem Readable.readable_append_operation {before after : List Token}
    (expression : Readable 1 before) (operand : Readable innermost after) (op : Operator) :
    Readable 1 (before ++ .operator op :: after) := by
  obtain ⟨left, leftReads⟩ := expression
  obtain ⟨right, rightReads⟩ := operand
  by_cases additive : op.precedence = 1
  · have sum : Reads op.precedence (before ++ .operator op :: after) (.operation op left right) :=
      .operation (by rwa [additive]) (by rw [additive]; exact .descend rightReads)
    rw [additive] at sum
    exact ⟨_, sum⟩
  · have multiplicative : op.precedence = 2 := by
      cases op <;> simp_all [Operator.precedence]
    have product (factors : List Token) (first : Tree) (factorsRead : Reads 2 factors first) :
        Reads 2 (factors ++ .operator op :: after) (.operation op first right) :=
      multiplicative ▸ .operation (multiplicative ▸ factorsRead) (multiplicative ▸ rightReads)
    generalize low : 1 = level at leftReads
    cases leftReads with
    | number text => simp [innermost] at low
    | group inner => simp [innermost] at low
    | descend term =>
      subst low
      exact ⟨_, .descend (product before left term)⟩
    | @operation outer earlier last first second firstReads lastReads =>
      rw [← low] at lastReads
      have joined : Reads outer.precedence
          (earlier ++ .operator outer :: (last ++ .operator op :: after))
          (.operation outer first (.operation op second right)) :=
        .operation firstReads (by rw [← low]; exact product last second lastReads)
      rw [List.append_assoc, List.cons_append]
      exact ⟨_, joined⟩

/-- What may stand before an operand in its group: nothing, or an expression and
an operator that still lacks its right operand. -/
def Pending (tokens : List Token) : Prop :=
  tokens = [] ∨ ∃ before op, Readable 1 before ∧ tokens = before ++ [.operator op]

/-- An operand completes what stands before it, be that nothing or an expression
that ends with an operator. -/
theorem Pending.readable_append_operand {pending operand : List Token} (waits : Pending pending)
    (readable : Readable innermost operand) : Readable 1 (pending ++ operand) := by
  rcases waits with rfl | ⟨before, op, expression, rfl⟩
  · exact readable.readable_of_operand
  · rw [List.append_assoc]
    exact expression.readable_append_operation readable op

/-- Tokens inside open groups, of which the innermost comes first, each with
what stands before it. This is the state of a reader that goes from left to
right: every open parenthesis remembers where its group has to be taken up
again. -/
def enclose : List (List Token) → List Token → List Token
  | [], tokens => tokens
  | pending :: outer, tokens => enclose outer (pending ++ .opening :: tokens)

/-- Tokens at the end of the innermost group are at the end of everything,
because no group has been closed behind them. -/
theorem enclose_append (groups : List (List Token)) (first second : List Token) :
    enclose groups (first ++ second) = enclose groups first ++ second := by
  induction groups generalizing first with
  | nil => rfl
  | cons pending outer ih =>
    rw [enclose, enclose, ← ih, List.append_assoc, List.cons_append]

/-- Closing all open groups after an expression gives an expression. From the
inside out, each group becomes an operand of what was pending before it. -/
theorem readable_of_close (groups : List (List Token)) (waits : ∀ group ∈ groups, Pending group)
    (tokens : List Token) (expression : Readable 1 tokens) :
    Readable 1 (enclose groups tokens ++ List.replicate groups.length .closing) := by
  induction groups generalizing tokens with
  | nil => simpa [enclose] using expression
  | cons pending outer ih =>
    have closed :=
      (waits pending List.mem_cons_self).readable_append_operand expression.readable_surround
    have whole := ih (fun group member => waits group (List.mem_cons_of_mem _ member)) _ closed
    rw [enclose, List.length_cons, List.replicate_succ, ← enclose_append]
    simpa [← enclose_append] using whole

/-- The tokens become an expression when parentheses are added at the ends,
opening ones at the front and closing ones behind. How many are needed is left
open. -/
def ReadableInside (tokens : List Token) : Prop :=
  ∃ i j, Readable 1 (List.replicate i .opening ++ tokens ++ List.replicate j .closing)

/-- Separate tokens with one number more than operators complete what stands
before them in open groups, and those with as many numbers as operators continue
an expression there.

Proof: induction on the tokens, with both statements at once. A token that
cannot come next would leave too many numbers to the tokens behind it, against
`numbers_le`. A closing parenthesis without an open group makes the whole
expression so far a group, and asks for one more parenthesis at the front. -/
theorem readableInside_of_balance (tokens : List Token) (separate : Token.Separate tokens) :
    (∀ groups pending, (∀ group ∈ groups, Pending group) → Pending pending →
        Token.numbers tokens = Token.operators tokens + 1 →
          ReadableInside (enclose groups (pending ++ tokens))) ∧
      ∀ groups expression, (∀ group ∈ groups, Pending group) → Readable 1 expression →
        Token.Continues tokens → Token.numbers tokens = Token.operators tokens →
          ReadableInside (enclose groups (expression ++ tokens)) := by
  induction tokens with
  | nil =>
    refine ⟨fun _ _ _ _ balance => absurd balance (by simp [Token.numbers, Token.operators]), ?_⟩
    intro groups expression waits readable _ _
    refine ⟨0, groups.length, ?_⟩
    simpa using readable_of_close groups waits expression readable
  | cons token rest ih =>
    obtain ⟨complete, resume⟩ := ih separate.tail
    obtain ⟨few, fewer⟩ := Token.numbers_le rest separate.tail
    constructor
    · intro groups pending waits awaited balance
      rw [Token.numbers_cons, Token.operators_cons] at balance
      cases token with
      | number text =>
        have readable := awaited.readable_append_operand ⟨_, .number text⟩
        have inside := resume groups _ waits readable (separate.continues_of_endsOperand rfl)
          (Nat.succ.inj balance)
        simpa using inside
      | operator op =>
        have more : Token.numbers rest = Token.operators rest + 1 + 1 := balance
        omega
      | opening =>
        exact complete (pending :: groups) [] (List.forall_mem_cons.mpr ⟨awaited, waits⟩) (.inl rfl)
          balance
      | closing =>
        have after := fewer (separate.continues_of_endsOperand rfl)
        have more : Token.numbers rest = Token.operators rest + 1 := balance
        omega
    · intro groups expression waits readable follows balance
      rw [Token.numbers_cons, Token.operators_cons] at balance
      cases token with
      | number text => exact nomatch follows _ _ rfl
      | operator op =>
        have inside := complete groups (expression ++ [.operator op]) waits
          (.inr ⟨expression, op, readable, rfl⟩) balance
        simpa using inside
      | opening => exact nomatch follows _ _ rfl
      | closing =>
        have remaining : Token.numbers rest = Token.operators rest := balance
        cases groups with
        | nil =>
          obtain ⟨i, j, whole⟩ := resume [] _ waits readable.readable_surround.readable_of_operand
            (separate.continues_of_endsOperand rfl) remaining
          refine ⟨i + 1, j, ?_⟩
          simpa [enclose, List.replicate_succ'] using whole
        | cons pending outer =>
          have closed :=
            (waits pending List.mem_cons_self).readable_append_operand readable.readable_surround
          have inside := resume outer _
            (fun group member => waits group (List.mem_cons_of_mem _ member)) closed
            (separate.continues_of_endsOperand rfl) remaining
          simpa [enclose] using inside

end Tree

namespace Postfix

/-- A token that is processed leaves a value on the stack, adds one if it is a
number and takes one away if it is an operator. A number that is processed is
plain. All of it is read off a single successful step, so that the run below
needs no knowledge of how a step works. -/
theorem step_spec {stack next : List Float} {token : Token} (done : step stack token = .ok next) :
    next ≠ [] ∧
      next.length + (if token.isOperator then 1 else 0) =
        stack.length + (if token.isNumber then 1 else 0) ∧
      ∀ text, token = .number text → Decimal.IsPlain text := by
  cases token with
  | number text =>
    cases read : Decimal.ofChars? text with
    | none => simp [step, numberValue, read, Except.map] at done
    | some decimal =>
      have pushed : decimal.toFloat :: stack = next := by
        simpa [step, numberValue, read, Except.map] using done
      subst pushed
      refine ⟨by simp, by simp [Token.isOperator, Token.isNumber], ?_⟩
      rintro _ ⟨⟩
      exact (Decimal.isSome_ofChars?_iff text).mp (Option.isSome_of_eq_some read)
  | operator op =>
    cases stack with
    | nil => simp [step] at done
    | cons right others =>
      cases others with
      | nil => simp [step] at done
      | cons left below =>
        have replaced : op.apply left right :: below = next := Except.ok.inj done
        subst replaced
        exact ⟨by simp, by simp [Token.isOperator, Token.isNumber], by simp⟩
  | opening => simp [step] at done
  | closing => simp [step] at done

/-- A run that succeeds leaves a value if there is one at first or any token, as
many more as there are more numbers than operators, and all its numbers are
plain. The counts are an equation, so that no subtraction is needed where
operators take values away. -/
theorem run_spec {stack final : List Float} {tokens : List Token}
    (done : run stack tokens = .ok final) :
    (stack ≠ [] ∨ tokens ≠ [] → final ≠ []) ∧
      final.length + Token.operators tokens = stack.length + Token.numbers tokens ∧
      ∀ text, Token.number text ∈ tokens → Decimal.IsPlain text := by
  induction tokens generalizing stack with
  | nil =>
    obtain rfl : stack = final := Except.ok.inj done
    exact ⟨by simp, rfl, by simp⟩
  | cons token rest ih =>
    rw [run] at done
    split at done
    · rename_i next stepped
      obtain ⟨present, counted, plain⟩ := step_spec stepped
      obtain ⟨later, laterCounted, laterPlain⟩ := ih done
      rw [Token.numbers_cons, Token.operators_cons]
      refine ⟨fun _ => later (.inl present), by omega, ?_⟩
      intro text member
      rcases List.mem_cons.mp member with same | behind
      · exact plain text same.symm
      · exact laterPlain text behind
    · cases done

/-- A token reaches the postfix order exactly if it is kept, since the order is
a permutation of the kept tokens. -/
theorem mem_ofTokens_iff (tokens : List Token) (token : Token) :
    token ∈ ofTokens tokens ↔ token ∈ tokens ∧ isKept token = true := by
  rw [(ofTokens_perm tokens).mem_iff, List.mem_filter]

/-- Postfix order has as many numbers and operators as the tokens had: it is a
permutation of the kept tokens, and neither kind is dropped. -/
theorem counts_ofTokens (tokens : List Token) :
    Token.numbers (ofTokens tokens) = Token.numbers tokens ∧
      Token.operators (ofTokens tokens) = Token.operators tokens := by
  have rearranged := ofTokens_perm tokens
  constructor
  · rw [Token.numbers, rearranged.countP_eq, List.countP_filter]
    exact List.countP_congr fun token _ => by cases token <;> simp [Token.isNumber, isKept]
  · rw [Token.operators, rearranged.countP_eq, List.countP_filter]
    exact List.countP_congr fun token _ => by cases token <;> simp [Token.isOperator, isKept]

/-- Nothing reaches the postfix order exactly if all tokens are parentheses. -/
theorem ofTokens_eq_nil_iff (tokens : List Token) :
    ofTokens tokens = [] ↔ ∀ token ∈ tokens, token = .opening ∨ token = .closing := by
  rw [← List.length_eq_zero_iff, (ofTokens_perm tokens).length_eq, List.length_eq_zero_iff,
    List.filter_eq_nil_iff]
  constructor
  · intro dropped token member
    have kept := dropped token member
    cases token <;> simp_all [isKept]
  · intro parentheses token member
    rcases parentheses token member with rfl | rfl <;> decide

/-- Evaluation of a list succeeds exactly if its run does. Even a run that
leaves nothing has a value, the zero of an empty expression. -/
theorem exists_eval_iff (tokens : List Token) :
    (∃ value, eval tokens = .ok value) ↔ ∃ final, run [] tokens = .ok final := by
  unfold eval
  cases run [] tokens <;> simp [Except.map]

end Postfix

/-- The numbers of a tree are those of its postorder. -/
theorem Tree.mem_numbers_iff (tree : Tree) (text : List Char) :
    text ∈ tree.numbers ↔ Token.number text ∈ tree.postorder := by
  induction tree with
  | number written => simp [numbers, postorder]
  | operation op left right leftIh rightIh => simp [numbers, postorder, leftIh, rightIh]

/-- Where no operand directly follows another, an expression has a value exactly
if nothing but parentheses is in it, or if it becomes an expression of the
grammar by parentheses added at the ends and all its numbers are plain.

Proof: a run that succeeds has one number more than operators or nothing to do
(`run_spec`), because separate tokens cannot have more (`numbers_le`), and that
balance is enough to read them (`readableInside_of_balance`). Conversely the
added parentheses change no postfix order, so the tree that they make readable
is what is evaluated, and a tree of plain numbers has a value. -/
theorem exists_value_iff (expression : List Char)
    (separate : Token.Separate (Token.scan (Token.normalize expression))) :
    (∃ value, evaluate expression = .ok value) ↔
      (∀ token ∈ Token.scan (Token.normalize expression), token = .opening ∨ token = .closing) ∨
        (∃ i j tree, Tree.Reads 1
          (List.replicate i .opening ++ Token.scan (Token.normalize expression) ++
            List.replicate j .closing) tree) ∧
          ∀ text, Token.number text ∈ Token.scan (Token.normalize expression) →
            Decimal.IsPlain text := by
  generalize scanned : Token.scan (Token.normalize expression) = tokens at separate
  have evaluated : evaluate expression = Postfix.eval (Postfix.ofTokens tokens) := by
    rw [← scanned, evaluate]
  constructor
  · rw [evaluated, Postfix.exists_eval_iff]
    rintro ⟨final, done⟩
    obtain ⟨present, counted, plain⟩ := Postfix.run_spec done
    by_cases nothing : Postfix.ofTokens tokens = []
    · exact .inl ((Postfix.ofTokens_eq_nil_iff tokens).mp nothing)
    · right
      have values : 0 < final.length := List.length_pos_of_ne_nil (present (.inr nothing))
      rw [(Postfix.counts_ofTokens tokens).1, (Postfix.counts_ofTokens tokens).2] at counted
      have most := (Token.numbers_le tokens separate).1
      have balance : Token.numbers tokens = Token.operators tokens + 1 := by
        simp only [List.length_nil] at counted
        omega
      have complete := (Tree.readableInside_of_balance tokens separate).1
      refine ⟨complete [] [] (by simp) (.inl rfl) balance, ?_⟩
      intro text member
      exact plain text ((Postfix.mem_ofTokens_iff tokens _).mpr ⟨member, rfl⟩)
  · rintro (parentheses | ⟨⟨i, j, tree, reads⟩, plain⟩)
    · rw [evaluated, (Postfix.ofTokens_eq_nil_iff tokens).mpr parentheses]
      exact ⟨0, rfl⟩
    · have order : Postfix.ofTokens tokens = tree.postorder := by
        rw [← Postfix.ofTokens_surround tokens i j, Postfix.ofTokens_of_reads reads]
      have readable : tree.firstUnreadable = none := by
        apply List.find?_eq_none.mpr
        intro text member
        rw [Tree.mem_numbers_iff, ← order, Postfix.mem_ofTokens_iff] at member
        simpa using plain text member.1
      obtain ⟨value, _, known⟩ := tree.value_of_readable readable
      exact ⟨value, (evaluate_eq_value expression tree (scanned ▸ order)).trans known⟩

/-- Both parentheses of `1+2)*(3` lack their partners, and it has a value all
the same: one parenthesis at each end makes it the product of two sums. -/
theorem unmatched_parentheses_have_value :
    Token.Separate (Token.scan (Token.normalize "1+2)*(3".toList)) ∧
      ∃ value, evaluate "1+2)*(3".toList = .ok value := by
  have separate : Token.Separate (Token.scan (Token.normalize "1+2)*(3".toList)) := by decide
  have scanned : Token.scan (Token.normalize "1+2)*(3".toList) =
      [.number ['1'], .operator .add, .number ['2'], .closing, .operator .multiply, .opening,
        .number ['3']] := by decide
  have sum := @Tree.Reads.operation .add [.number ['1']] [.number ['2']] _ _
    (.descend (.descend (.number _))) (.descend (.number _))
  have three : Tree.Reads 1 [.number ['3']] (.number ['3']) := .descend (.descend (.number _))
  have product := @Tree.Reads.operation .multiply _ _ _ _ (.descend (.group sum)) (.group three)
  have surrounded : ∃ i j tree, Tree.Reads 1
      (List.replicate i .opening ++ Token.scan (Token.normalize "1+2)*(3".toList) ++
        List.replicate j .closing) tree := by
    rw [scanned]
    exact ⟨1, 1, _, .descend product⟩
  refine ⟨separate, (exists_value_iff _ separate).mpr (.inr ⟨surrounded, ?_⟩)⟩
  rw [scanned]
  intro text member
  simp only [List.mem_cons, Token.number.injEq, reduceCtorEq, List.not_mem_nil, false_or,
    or_false] at member
  rcases member with rfl | rfl | rfl <;> decide

end Reckon
