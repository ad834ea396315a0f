import Reckon.Proofs.Conversion
import Reckon.Proofs.PlainDecimal

/-!
# Evaluation computes the meaning of an expression

The meaning of an expression is that of the tree as which it reads:
`Tree.Denotes` gives a number its double and an operation the value of its
operator on the values of its operands, the left one first. It knows nothing of
postfix order or of stacks.

The converter writes the tree in postorder, and running a postorder pushes the
value of its tree. So evaluation finds the meaning whenever all numbers of the
expression are plain decimals, and otherwise stops at the leftmost one that is
not, however deep in the tree it stands.
-/

namespace Reckon

namespace Tree

/-- The double that a tree stands for. A tree with a number that is not plain
stands for none. -/
inductive Denotes : Tree → Float → Prop where
  /-- A plain decimal stands for the double nearest to it. -/
  | number {text : List Char} {decimal : Decimal} :
      Decimal.ofChars? text = some decimal → Denotes (.number text) decimal.toFloat
  /-- An operation stands for the value of its operator on those of its
  operands. -/
  | operation {op : Operator} {left right : Tree} {first second : Float} :
      Denotes left first → Denotes right second →
        Denotes (.operation op left right) (op.apply first second)

/-- The leftmost number of a tree that is not plain. It is the one that is
reported, because numbers come to the front of the postorder in their order. -/
def firstUnreadable (tree : Tree) : Option (List Char) :=
  tree.numbers.find? fun text => !decide (Decimal.IsPlain text)

theorem firstUnreadable_operation (op : Operator) (left right : Tree) :
    firstUnreadable (.operation op left right) = left.firstUnreadable.or right.firstUnreadable :=
  List.find?_append

/-- A tree without unreadable numbers has the value that it stands for, by
induction on the tree: both operands are readable, and every operator has a
value. -/
theorem value_of_readable (tree : Tree) (readable : tree.firstUnreadable = none) :
    ∃ value, tree.Denotes value ∧ tree.value = .ok value := by
  induction tree with
  | number text =>
    have plain : Decimal.IsPlain text := by simpa [firstUnreadable, numbers] using readable
    obtain ⟨decimal, read⟩ :=
      Option.isSome_iff_exists.mp ((Decimal.isSome_ofChars?_iff text).mpr plain)
    exact ⟨decimal.toFloat, .number read, by simp [Tree.value, numberValue, read]⟩
  | operation op left right leftIh rightIh =>
    rw [firstUnreadable_operation, Option.or_eq_none_iff] at readable
    obtain ⟨first, leftDenotes, leftValue⟩ := leftIh readable.1
    obtain ⟨second, rightDenotes, rightValue⟩ := rightIh readable.2
    exact ⟨op.apply first second, .operation leftDenotes rightDenotes,
      by simp [Tree.value, leftValue, rightValue]⟩

/-- The first unreadable number of a tree is the reason why it has no value. If
it is in the right operand, the left one has been evaluated without an error. -/
theorem value_of_unreadable (tree : Tree) (text : List Char)
    (unreadable : tree.firstUnreadable = some text) :
    tree.value = .error (.malformedNumber text) := by
  induction tree with
  | number written =>
    have refused := List.find?_some unreadable
    obtain rfl := List.mem_singleton.mp (List.mem_of_find?_eq_some unreadable)
    have unread := (Decimal.ofChars?_eq_none_iff text).mpr (by simpa using refused)
    simp [Tree.value, numberValue, unread]
  | operation op left right leftIh rightIh =>
    rw [firstUnreadable_operation, Option.or_eq_some_iff] at unreadable
    rcases unreadable with inLeft | ⟨leftReadable, inRight⟩
    · simp [Tree.value, leftIh inLeft]
    · obtain ⟨first, _, leftValue⟩ := value_of_readable left leftReadable
      simp [Tree.value, leftValue, rightIh inRight]

end Tree

/-- An expression that comes out in the postorder of a tree has the value of the
tree, because running a postorder pushes the value of its tree. -/
theorem evaluate_eq_value (expression : List Char) (tree : Tree)
    (order : Postfix.ofTokens (Token.scan (Token.normalize expression)) = tree.postorder) :
    evaluate expression = tree.value := by
  have run := Tree.run_postorder tree [] []
  rw [List.append_nil] at run
  rw [evaluate, order, Postfix.eval, run]
  cases tree.value <;> rfl

/-- An expression that reads as a tree is put into the postorder of that tree,
and its value is what the tree stands for if all its numbers are plain.
Otherwise the leftmost number that is not plain is reported.

Proof: the order is `ofTokens_of_reads`, an induction on the reading. From there
on only the tree matters: `evaluate_eq_value` replaces the stack machine by the
recursion over the tree, of which the two cases are `value_of_readable` and
`value_of_unreadable`. -/
theorem evaluate_of_reads (expression : List Char) (tree : Tree)
    (reads : Tree.Reads 1 (Token.scan (Token.normalize expression)) tree) :
    Postfix.ofTokens (Token.scan (Token.normalize expression)) = tree.postorder ∧
      ((∀ text ∈ tree.numbers, Decimal.IsPlain text) →
        ∃ value, tree.Denotes value ∧ evaluate expression = .ok value) ∧
      ∀ before text after, tree.numbers = before ++ text :: after →
        (∀ earlier ∈ before, Decimal.IsPlain earlier) → ¬Decimal.IsPlain text →
          evaluate expression = .error (.malformedNumber text) := by
  have order := Postfix.ofTokens_of_reads reads
  refine ⟨order, ?_, ?_⟩
  · intro plain
    have readable : tree.firstUnreadable = none := by
      apply List.find?_eq_none.mpr
      intro text member
      simpa using plain text member
    obtain ⟨value, denotes, known⟩ := tree.value_of_readable readable
    exact ⟨value, denotes, (evaluate_eq_value expression tree order).trans known⟩
  · intro before text after numbers plain refused
    have unreadable : tree.firstUnreadable = some text := by
      apply List.find?_eq_some_iff_append.mpr
      refine ⟨by simpa using refused, before, after, numbers, ?_⟩
      intro earlier member
      simpa using plain earlier member
    exact (evaluate_eq_value expression tree order).trans (tree.value_of_unreadable text unreadable)

/-- The tree of `8-3-2×(1+.5)`. -/
def exampleTree : Tree :=
  .operation .subtract
    (.operation .subtract (.number ['8']) (.number ['3']))
    (.operation .multiply (.number ['2']) (.operation .add (.number ['1']) (.number ['.', '5'])))

/-- Subtraction associates to the left, the product is taken first, and its
second factor is grouped by parentheses that leave nothing behind. All levels of
the grammar are used in reading it. -/
theorem example_evaluates :
    Tree.Reads 1 (Token.scan (Token.normalize "8-3-2×(1+.5)".toList)) exampleTree ∧
      Postfix.ofTokens (Token.scan (Token.normalize "8-3-2×(1+.5)".toList)) =
        exampleTree.postorder ∧
      ∃ value, exampleTree.Denotes value ∧ evaluate "8-3-2×(1+.5)".toList = .ok value := by
  have scanned : Token.scan (Token.normalize "8-3-2×(1+.5)".toList) =
      [.number ['8']] ++ .operator .subtract :: [.number ['3']] ++ .operator .subtract ::
        ([.number ['2']] ++ .operator .multiply ::
          (.opening ::
          ([.number ['1']] ++ .operator .add :: [.number ['.', '5']] ++ [.closing]))) := by
    decide
  have sum := @Tree.Reads.operation .add [.number ['1']] [.number ['.', '5']] _ _
    (.descend (.descend (.number _))) (.descend (.number _))
  have product := @Tree.Reads.operation .multiply [.number ['2']] _ _ _
    (.descend (.number _)) (.group sum)
  have difference := @Tree.Reads.operation .subtract [.number ['8']] [.number ['3']] _ _
    (.descend (.descend (.number _))) (.descend (.number _))
  have reads : Tree.Reads 1 (Token.scan (Token.normalize "8-3-2×(1+.5)".toList)) exampleTree := by
    rw [scanned]
    exact @Tree.Reads.operation .subtract _ _ _ _ difference product
  obtain ⟨order, evaluates, _⟩ := evaluate_of_reads _ _ reads
  exact ⟨reads, order, evaluates (by decide)⟩

end Reckon
