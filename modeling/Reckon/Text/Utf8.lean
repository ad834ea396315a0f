import Reckon.Text.Quoted

/-!
# UTF-8

Requests, replies and expression files travel as bytes. `encode` writes each
character in one to four bytes. `decode` reads them back one byte at a time: the
first byte of a character says how many continuation bytes follow and bounds the
next one, which keeps out overlong forms, surrogates and code points above
U+10FFFF.

A refusal names the bytes that could have begun a character but do not: the
bytes taken so far when a continuation byte is out of bounds or missing, or the
single byte that begins nothing.
-/

namespace Reckon.Text.Utf8

/-- The bytes of one character. -/
def encodeChar (c : Char) : List UInt8 :=
  let code := c.toNat
  let continuation (sextets : Nat) : UInt8 := UInt8.ofNat (0x80 + code / Nat.pow 64 sextets % 64)
  if code < 0x80 then [UInt8.ofNat code]
  else if code < 0x800 then [UInt8.ofNat (0xC0 + code / 64), continuation 0]
  else if code < 0x10000 then
    [UInt8.ofNat (0xE0 + code / Nat.pow 64 2), continuation 1, continuation 0]
  else [UInt8.ofNat (0xF0 + code / Nat.pow 64 3), continuation 2, continuation 1, continuation 0]

/-- The bytes of a text. -/
def encode (text : List Char) : List UInt8 :=
  text.flatMap encodeChar

/-- Why bytes are not the encoding of a text. -/
inductive Cause where
  /-- The byte begins no character. -/
  | invalidStart
  /-- The byte after the named ones does not continue the character they
  begin. -/
  | invalidContinuation
  /-- The data ends inside the character that the named bytes begin. -/
  | unexpectedEnd
  deriving DecidableEq, Repr

/-- The wording of a cause. -/
def Cause.message : Cause → String
  | .invalidStart => "invalid start byte"
  | .invalidContinuation => "invalid continuation byte"
  | .unexpectedEnd => "unexpected end of data"

/-- A refusal: the bytes from position `start` on, `length` in number and
beginning with `first`. -/
structure Error where
  start : Nat
  length : Nat
  first : UInt8
  cause : Cause
  deriving DecidableEq, Repr

/-- The wording of a refusal: one byte is shown by its value, several by their
positions. -/
def Error.message (error : Error) : String :=
  let reason := error.cause.message
  if error.length ≤ 1 then
    let byte := String.ofList (Quoted.hexadecimal 2 error.first.toNat)
    s!"'utf-8' codec can't decode byte 0x{byte} in position {error.start}: {reason}"
  else
    let last := error.start + error.length - 1
    s!"'utf-8' codec can't decode bytes in position {error.start}-{last}: {reason}"

/-- What a first byte announces: its bits of the code point, the number of
continuation bytes owed, and the bounds of the next of them. -/
structure Lead where
  value : Nat
  owed : Nat
  low : Nat := 0x80
  high : Nat := 0xBF

/-- Read the first byte of a character. The second byte is bounded more tightly
after 0xE0 and 0xF0, where a shorter form exists, after 0xED, where surrogates
lie, and after 0xF4, where the code points end. -/
def Lead.ofByte? (byte : UInt8) : Option Lead :=
  let b := byte.toNat
  if b < 0x80 then some { value := b, owed := 0 }
  else if b < 0xC2 then none
  else if b < 0xE0 then some { value := b - 0xC0, owed := 1 }
  else if b = 0xE0 then some { value := 0, owed := 2, low := 0xA0 }
  else if b = 0xED then some { value := 0xD, owed := 2, high := 0x9F }
  else if b < 0xF0 then some { value := b - 0xE0, owed := 2 }
  else if b = 0xF0 then some { value := 0, owed := 3, low := 0x90 }
  else if b < 0xF4 then some { value := b - 0xF0, owed := 3 }
  else if b = 0xF4 then some { value := 4, owed := 3, high := 0x8F }
  else none

/-- A character that has begun: where, with which byte, how many bytes it has,
and what is owed. -/
structure Begun where
  start : Nat
  first : UInt8
  length : Nat
  lead : Lead

/-- The refusal of a character that was begun and not completed. -/
def Begun.refuse (begun : Begun) (cause : Cause) : Error :=
  { start := begun.start, length := begun.length, first := begun.first, cause }

/-- The lead after one more continuation byte, which has only the general bounds
to keep. -/
def Lead.push (lead : Lead) (byte : UInt8) : Lead :=
  { value := lead.value * 64 + (byte.toNat - 0x80), owed := lead.owed - 1 }

/-- Read the bytes from a position on, in the middle of a character or between
two. -/
def decodeFrom (position : Nat) : Option Begun → List UInt8 → Except Error (List Char)
  | none, [] => .ok []
  | some begun, [] => .error (begun.refuse .unexpectedEnd)
  | none, byte :: rest =>
      match Lead.ofByte? byte with
      | none => .error { start := position, length := 1, first := byte, cause := .invalidStart }
      | some lead =>
          if lead.owed = 0 then
            (decodeFrom (position + 1) none rest).map (Char.ofNat lead.value :: ·)
          else
            decodeFrom (position + 1)
              (some { start := position, first := byte, length := 1, lead }) rest
  | some begun, byte :: rest =>
      if begun.lead.low ≤ byte.toNat ∧ byte.toNat ≤ begun.lead.high then
        let lead := begun.lead.push byte
        if lead.owed = 0 then
          (decodeFrom (position + 1) none rest).map (Char.ofNat lead.value :: ·)
        else
          decodeFrom (position + 1) (some { begun with length := begun.length + 1, lead }) rest
      else .error (begun.refuse .invalidContinuation)

/-- The text that bytes encode, or the first bytes that encode nothing. -/
def decode (bytes : List UInt8) : Except Error (List Char) :=
  decodeFrom 0 none bytes

end Reckon.Text.Utf8
