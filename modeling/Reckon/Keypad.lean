import Reckon.Evaluation
import Reckon.Text.Digit

/-!
# Keypad

A keypad holds the expression typed so far and the result shown last. Every key
edits the expression; only the equals key evaluates it, and only that key and
the clear key change the result.

A digit key adds its text and an operator key its operator, except that an
operator after an operator or after a point takes that character's place, and
that nothing starts with an operator. The sign key looks at the number at the
end of the expression: it takes a minus sign away that stands there as a sign,
that is, at the very start or after an operator or an opening parenthesis, and
otherwise puts one in front of the number.
-/

namespace Reckon

/-- The characters on the digit keys. -/
def digitKeys : List Char := ['0', '1', '2', '3', '4', '5', '6', '7', '8', '9', '.', '(', ')']

/-- The characters on the operator keys, the display glyphs included. -/
def operatorKeys : List Char := ['+', '-', '*', '/', '×', '÷']

/-- A text occurs in another as an unbroken piece; the empty text occurs
everywhere. -/
def occursIn (piece : List Char) : List Char → Bool
  | [] => piece.isEmpty
  | c :: rest => piece.isPrefixOf (c :: rest) || occursIn piece rest

/-- A key. The text of a digit or operator key may be any piece of the row of
its kind; `enter` puts an expression in the place of the typed one. -/
inductive Key where
  | digit (text : List Char)
  | operator (text : List Char)
  | delete
  | clear
  | toggleSign
  | equals
  | enter (text : List Char)
  deriving DecidableEq, Repr

/-- Why a key was refused. -/
inductive KeyError where
  | notDigit (text : List Char)
  | notOperator (text : List Char)
  deriving DecidableEq, Repr

/-- The wording of a refusal. -/
def KeyError.message : KeyError → String
  | .notDigit text =>
      let quoted := Text.Quoted.quote text
      s!"not a digit key: {quoted}"
  | .notOperator text =>
      let quoted := Text.Quoted.quote text
      s!"not an operator key: {quoted}"

/-- The state of a keypad: a new one holds no expression and shows no result. -/
structure Keypad where
  typed : List Char := []
  result : String := ""
  deriving DecidableEq

/-- What a key brings to light besides the new state: nothing, a refusal, or an
outcome. -/
inductive Notice where
  | nothing
  | refused (error : KeyError)
  | evaluated (outcome : Except EvalError Float)

namespace Keypad

/-- The expression as displayed: an empty one is shown as zero. -/
def display (keypad : Keypad) : List Char :=
  if keypad.typed.isEmpty then ['0'] else keypad.typed

/-- The expression after a digit key. A second zero after a lone zero is
ignored. -/
def typeDigit (typed text : List Char) : List Char :=
  if typed = ['0'] ∧ text = ['0'] then typed else typed ++ text

/-- The expression after an operator key. -/
def typeOperator (typed text : List Char) : List Char :=
  match typed.getLast? with
  | none => typed
  | some last =>
      if last ∈ operatorKeys ∨ last = '.' then typed.dropLast ++ text else typed ++ text

/-- An expression without the line feed that ends it, if one does. -/
def dropFinalLineFeed (typed : List Char) : List Char :=
  if typed.getLast? = some '\n' then typed.dropLast else typed

/-- Split off the longest number at the end: digits, with at most one point
before the last run of them. A final line feed does not hide the number and is
lost. -/
def splitNumber? (typed : List Char) : Option (List Char × List Char) :=
  let reversed := (dropFinalLineFeed typed).reverse
  let digits := reversed.takeWhile Text.isDigit
  if digits.isEmpty then none
  else match reversed.dropWhile Text.isDigit with
    | '.' :: before =>
        some ((before.dropWhile Text.isDigit).reverse,
          (digits ++ '.' :: before.takeWhile Text.isDigit).reverse)
    | before => some (before.reverse, digits.reverse)

/-- The characters before a number after its sign has changed. -/
def toggleHead (head : List Char) : List Char :=
  match head.reverse with
  | ['-'] => []
  | '-' :: before :: rest =>
      if before ∈ operatorKeys ∨ before = '(' then (before :: rest).reverse else head ++ ['-']
  | _ => head ++ ['-']

/-- The expression after the sign key. Without a number at the end nothing
changes. -/
def toggle (typed : List Char) : List Char :=
  match splitNumber? typed with
  | none => typed
  | some (head, number) => toggleHead head ++ number

/-- Press one key. A refused key leaves the keypad as it is. -/
def press (keypad : Keypad) : Key → Keypad × Notice
  | .digit text =>
      if occursIn text digitKeys then
        ({ keypad with typed := typeDigit keypad.typed text }, .nothing)
      else (keypad, .refused (.notDigit text))
  | .operator text =>
      if occursIn text operatorKeys then
        ({ keypad with typed := typeOperator keypad.typed text }, .nothing)
      else (keypad, .refused (.notOperator text))
  | .delete => ({ keypad with typed := keypad.typed.dropLast }, .nothing)
  | .clear => ({}, .nothing)
  | .toggleSign => ({ keypad with typed := toggle keypad.typed }, .nothing)
  | .equals =>
      let outcome := evaluate keypad.typed
      ({ keypad with result := outcomeText outcome }, .evaluated outcome)
  | .enter text => ({ keypad with typed := text }, .nothing)

/-- The keypad after a sequence of keys. -/
def pressAll (keypad : Keypad) (keys : List Key) : Keypad :=
  keys.foldl (fun current key => (current.press key).1) keypad

/-- The states and notices after each of a sequence of keys. -/
def trace (keypad : Keypad) : List Key → List (Keypad × Notice)
  | [] => []
  | key :: rest =>
      let response := keypad.press key
      response :: trace response.1 rest

end Keypad

end Reckon
