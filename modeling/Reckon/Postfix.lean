import Reckon.Token

/-!
# Postfix order

Postfix order writes every operator after its operands and needs no parentheses.
The converter reads the tokens once and holds back the operators whose right
operand is not complete, together with the parentheses that are still open, the
most recent first.

Each token releases some of what is held, in the order of the output, and then
changes what is held:

* a number is released at once;
* an operator releases the operators held since the last open parenthesis that
  bind at least as tightly, so that equal operators associate to the left, and
  is then held itself;
* an opening parenthesis is held;
* a closing parenthesis releases the operators back to its opening one and drops
  that, or releases everything if none is open.

At the end all operators still held are released. Parentheses left open are
forgotten.
-/

namespace Reckon.Postfix

/-- What is held back: an operator or an open parenthesis. -/
inductive Held where
  | operator (op : Operator)
  | opening
  deriving DecidableEq, Repr

/-- A held operator gives way to an incoming one that binds no more tightly.
Among equals the earlier one goes first, so operators associate to the left. -/
def Held.yieldsTo (incoming : Operator) : Held → Bool
  | .operator op => incoming.precedence ≤ op.precedence
  | .opening => false

/-- The operators among what is held, as tokens. -/
def operators (held : List Held) : List Token :=
  held.filterMap fun
    | .operator op => some (.operator op)
    | .opening => none

/-- What a token releases. A closing parenthesis without an open one releases
all operators, as if it had been opened in front of everything. -/
def released (held : List Held) : Token → List Token
  | .number text => [.number text]
  | .operator op => operators (held.takeWhile (Held.yieldsTo op))
  | .opening => []
  | .closing => operators (held.takeWhile (· ≠ .opening))

/-- What is held after a token. A closing parenthesis takes its open one away;
if there is none, nothing is held any more. -/
def hold (held : List Held) : Token → List Held
  | .number _ => held
  | .operator op => .operator op :: held.dropWhile (Held.yieldsTo op)
  | .opening => .opening :: held
  | .closing => (held.dropWhile (· ≠ .opening)).drop 1

/-- Convert the remaining tokens with something held. The last thing held comes
first. -/
def convert (held : List Held) : List Token → List Token
  | [] => operators held
  | token :: rest => released held token ++ convert (hold held token) rest

/-- The tokens in postfix order, from an empty stack. Parentheses that were
never closed do not appear in it. -/
def ofTokens (tokens : List Token) : List Token :=
  convert [] tokens

end Reckon.Postfix
