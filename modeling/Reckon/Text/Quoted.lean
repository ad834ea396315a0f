import Reckon.Text.Printable

/-!
# Quoted text

A refused text is shown in quotes, so that a reader sees where it starts and
ends and which characters it holds. Apostrophes serve as quotes, unless the text
holds apostrophes and no quotation marks; then quotation marks do, and nothing
inside needs an escape.

Inside, the backslash, the chosen quote and the three common controls have
escapes of one letter, and every other character that is not printable is
written by its code point in two, four or eight hexadecimal digits, the fewest
of these that hold it.
-/

namespace Reckon.Text.Quoted

/-- The low `width` hexadecimal digits of a number, in lower case. -/
def hexadecimal : (width : Nat) → Nat → List Char
  | 0, _ => []
  | width + 1, number => hexadecimal width (number / 16) ++ [Nat.digitChar (number % 16)]

/-- The quote that surrounds a text. -/
def quoteFor (text : List Char) : Char :=
  if text.contains '\'' && !text.contains '"' then '"' else '\''

/-- One character between the given quotes. -/
def escape (quote c : Char) : List Char :=
  if c == quote || c == '\\' then ['\\', c]
  else if c == '\n' then ['\\', 'n']
  else if c == '\r' then ['\\', 'r']
  else if c == '\t' then ['\\', 't']
  else if isPrintable c then [c]
  else if c.toNat < 0x100 then ['\\', 'x'] ++ hexadecimal 2 c.toNat
  else if c.toNat < 0x10000 then ['\\', 'u'] ++ hexadecimal 4 c.toNat
  else ['\\', 'U'] ++ hexadecimal 8 c.toNat

/-- A text in its quotes. -/
def encode (text : List Char) : List Char :=
  let quote := quoteFor text
  [quote] ++ text.flatMap (escape quote) ++ [quote]

/-- The quoted form of a text, for a message. -/
def quote (text : List Char) : String :=
  String.ofList (encode text)

end Reckon.Text.Quoted
