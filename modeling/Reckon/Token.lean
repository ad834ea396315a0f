import Reckon.Text.Quoted

/-!
# Tokens of an expression

An expression is a sequence of numbers, the four operators and parentheses.
Scanning keeps the characters that matter and drops all others without a trace:
a number consists of all number characters up to the next operator or
parenthesis, whether or not dropped characters stood between them. Whether a
number is well formed is not decided here.

A display shows multiplication and division by glyphs of their own. `normalize`
puts the plain symbols in their place; scanning itself knows only these.
-/

namespace Reckon

/-- The four operators. -/
inductive Operator where
  | add
  | subtract
  | multiply
  | divide
  deriving DecidableEq, Repr

namespace Operator

/-- The symbol that stands for an operator. -/
def symbol : Operator → Char
  | .add => '+'
  | .subtract => '-'
  | .multiply => '*'
  | .divide => '/'

/-- The operator that a symbol stands for. -/
def ofSymbol? : Char → Option Operator
  | '+' => some .add
  | '-' => some .subtract
  | '*' => some .multiply
  | '/' => some .divide
  | _ => none

/-- The operator that a text stands for: the text has to be one symbol. -/
def ofText? : List Char → Option Operator
  | [c] => ofSymbol? c
  | _ => none

/-- The wording for a text that stands for no operator. -/
def unknownMessage (symbol : List Char) : String :=
  let quoted := Text.Quoted.quote symbol
  s!"unknown operator: {quoted}"

/-- Multiplication and division bind more tightly than addition and
subtraction. -/
def precedence : Operator → Nat
  | .add => 1
  | .subtract => 1
  | .multiply => 2
  | .divide => 2

/-- The value of an operation on doubles. Division by zero gives an infinity
whose sign is the product of the signs, and zero divided by zero is no
number. -/
def apply : Operator → Float → Float → Float
  | .add, left, right => left + right
  | .subtract, left, right => left - right
  | .multiply, left, right => left * right
  | .divide, left, right => left / right

end Operator

/-- A token: a number as it was written, an operator, or a parenthesis. -/
inductive Token where
  | number (text : List Char)
  | operator (op : Operator)
  | opening
  | closing
  deriving DecidableEq, Repr

namespace Token

/-- The characters that a token stands for. -/
def text : Token → List Char
  | .number text => text
  | .operator op => [op.symbol]
  | .opening => ['(']
  | .closing => [')']

/-- The plain symbol of a display glyph; other characters stand for
themselves. -/
def plainSymbol (c : Char) : Char :=
  if c = '×' then '*' else if c = '÷' then '/' else c

/-- Put the plain symbols in the place of the display glyphs. -/
def normalize (expression : List Char) : List Char :=
  expression.map plainSymbol

/-- The characters of numbers: the ten digits and the point. -/
def isNumeric (c : Char) : Bool :=
  c.isDigit || c == '.'

/-- The token of a single character, if the character is an operator or a
parenthesis. -/
def ofMark? (c : Char) : Option Token :=
  if c = '(' then some .opening
  else if c = ')' then some .closing
  else (Operator.ofSymbol? c).map .operator

/-- Put a number character in front of tokens: it joins a number that comes
first. -/
def consNumeric (c : Char) : List Token → List Token
  | .number text :: rest => .number (c :: text) :: rest
  | tokens => .number [c] :: tokens

/-- The tokens of an expression. -/
def scan : List Char → List Token
  | [] => []
  | c :: rest =>
      if isNumeric c then consNumeric c (scan rest)
      else match ofMark? c with
        | some mark => mark :: scan rest
        | none => scan rest

end Token

end Reckon
