import Reckon.Evaluation

/-!
# Expression trees

What an expression means is a tree: numbers at the leaves, and at every other
place an operator with its two operands. Parentheses only decide the shape and
leave nothing behind.

`Reads level tokens tree` is the grammar. Its levels are the precedences of the
operators and one more, at which a token list is a single number or stands in
parentheses. An operator joins a list of its own level on the left to one of the
next level on the right, so that operators of equal precedence associate to the
left and tighter ones are grouped first. An expression is a list of the first
level.
-/

namespace Reckon

/-- An expression tree. -/
inductive Tree where
  | number (text : List Char)
  | operation (op : Operator) (left right : Tree)
  deriving DecidableEq, Repr

namespace Tree

/-- The tokens of a tree in postfix order: the left operand, the right operand,
the operator. -/
def postorder : Tree → List Token
  | number text => [.number text]
  | operation op left right => left.postorder ++ right.postorder ++ [.operator op]

/-- The numbers of a tree from left to right. -/
def numbers : Tree → List (List Char)
  | number text => [text]
  | operation _ left right => left.numbers ++ right.numbers

/-- The value of a tree from the values of its operands. Without a value, the
leftmost number that has none is the reason. -/
def value : Tree → Except EvalError Float
  | number text => numberValue text
  | operation op left right =>
      match left.value with
      | .error error => .error error
      | .ok first =>
          match right.value with
          | .error error => .error error
          | .ok second => .ok (op.apply first second)

/-- The level of single numbers and of lists in parentheses, above that of every
operator. -/
def innermost : Nat := 3

/-- A token list reads as a tree at a level of the grammar. The levels are those
of precedence, and operators of the same level associate to the left. -/
inductive Reads : Nat → List Token → Tree → Prop where
  /-- A number is a leaf. -/
  | number (text : List Char) : Reads innermost [.number text] (.number text)
  /-- Parentheses may surround any expression. -/
  | group {tokens : List Token} {tree : Tree} :
      Reads 1 tokens tree → Reads innermost (.opening :: (tokens ++ [.closing])) tree
  /-- What reads at one level reads at the level below it. -/
  | descend {level : Nat} {tokens : List Token} {tree : Tree} :
      Reads (level + 1) tokens tree → Reads level tokens tree
  /-- An operator joins two lists at the level of its precedence. -/
  | operation {op : Operator} {before after : List Token} {left right : Tree} :
      Reads op.precedence before left → Reads (op.precedence + 1) after right →
        Reads op.precedence (before ++ .operator op :: after) (.operation op left right)

/-- Evaluating the postorder of a tree puts the value of the tree onto the
stack, whatever is on it already and whatever tokens follow. -/
theorem run_postorder (tree : Tree) (stack : List Float) (rest : List Token) :
    Postfix.run stack (tree.postorder ++ rest) =
      match tree.value with
      | .ok value => Postfix.run (value :: stack) rest
      | .error error => .error error := by
  induction tree generalizing stack rest with
  | number text =>
    cases known : numberValue text <;>
      simp [postorder, value, Postfix.run, Postfix.step, known, Except.map]
  | operation op left right leftRun rightRun =>
    simp only [postorder, value, List.append_assoc, leftRun]
    cases left.value with
    | error error => rfl
    | ok first =>
      simp only [rightRun]
      cases right.value with
      | error error => rfl
      | ok second => rfl

end Tree

end Reckon
