import Reckon.Decimal
import Reckon.Double.Layout
import Reckon.Postfix
import Reckon.Settings

/-!
# Evaluation

A token list in postfix order is evaluated on a stack of values, most recent
first. A number is pushed and an operator replaces the two topmost values, the
deeper one being its left operand. The value of the list is the topmost one at
the end, and zero if there is none; values left below it do not count.

An expression is evaluated by normalizing its glyphs, scanning it, putting it in
postfix order and evaluating that. The first token that cannot be processed
stops the evaluation with the reason.
-/

namespace Reckon

/-- Why an evaluation stopped. -/
inductive EvalError where
  /-- A number is not a plain decimal. -/
  | malformedNumber (text : List Char)
  /-- An operator finds fewer than two values. -/
  | missingOperands (op : Operator) (available : Nat)
  /-- A parenthesis stands in a list that is supposed to be in postfix order. -/
  | unexpectedToken (token : Token)
  /-- A text stands for no operator. -/
  | unknownOperator (symbol : List Char)
  deriving DecidableEq, Repr

namespace EvalError

/-- The name of the kind of an error, as the service writes it into its
journal. -/
def kind : EvalError → String
  | .malformedNumber _ => "MalformedNumber"
  | .missingOperands _ _ => "InsufficientOperands"
  | .unexpectedToken _ => "MalformedExpression"
  | .unknownOperator _ => "MalformedExpression"

/-- The wording of an error. -/
def message : EvalError → String
  | .malformedNumber text =>
      let quoted := Text.Quoted.quote text
      s!"malformed number: {quoted}"
  | .missingOperands op available =>
      let quoted := Text.Quoted.quote [op.symbol]
      s!"operator {quoted} needs two operands, has {available}"
  | .unexpectedToken token =>
      let shown := String.ofList token.text
      s!"unexpected token in postfix: {shown}"
  | .unknownOperator symbol => Operator.unknownMessage symbol

end EvalError

/-- The double that a number token stands for. -/
def numberValue (text : List Char) : Except EvalError Float :=
  match Decimal.ofChars? text with
  | some decimal => .ok decimal.toFloat
  | none => .error (.malformedNumber text)

/-- Apply the operator that a text stands for. -/
def applySymbol (symbol : List Char) (left right : Float) : Except EvalError Float :=
  match Operator.ofText? symbol with
  | some op => .ok (op.apply left right)
  | none => .error (.unknownOperator symbol)

namespace Postfix

/-- The stack after one token. -/
def step (stack : List Float) : Token → Except EvalError (List Float)
  | .number text => (numberValue text).map (· :: stack)
  | .operator op =>
      match stack with
      | right :: left :: rest => .ok (op.apply left right :: rest)
      | _ => .error (.missingOperands op stack.length)
  | .opening => .error (.unexpectedToken .opening)
  | .closing => .error (.unexpectedToken .closing)

/-- The stack after all tokens. The first token that fails ends the
evaluation. -/
def run (stack : List Float) : List Token → Except EvalError (List Float)
  | [] => .ok stack
  | token :: rest =>
      match step stack token with
      | .ok next => run next rest
      | .error error => .error error

/-- The value of a token list in postfix order: the top of the stack in the end.
No tokens have the value zero. -/
def eval (tokens : List Token) : Except EvalError Float :=
  (run [] tokens).map (·.headD 0)

end Postfix

/-- The value of an expression. Glyphs are replaced, the text is cut into
tokens, these are put into postfix order and evaluated. -/
def evaluate (expression : List Char) : Except EvalError Float :=
  Postfix.eval (Postfix.ofTokens (Token.scan (Token.normalize expression)))

/-- The text of an outcome, as a keypad shows it and as the service replies
it. -/
def outcomeText : Except EvalError Float → String
  | .ok value => Double.text value
  | .error _ => Settings.failure

end Reckon
