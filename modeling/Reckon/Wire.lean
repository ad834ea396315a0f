import Reckon.Settings
import Reckon.Text.Utf8

/-!
# The wire

A request and a reply travel as UTF-8 over a connection. One receive takes at
most a fixed number of bytes, so a long message is cut there, possibly inside a
character. A receive fails if the connection does, with the words of the
network, or if the bytes it took are not the encoding of a text.
-/

namespace Reckon.Wire

/-- Why a message did not come through. -/
inductive Fault where
  /-- The connection failed. -/
  | connection (text : String)
  /-- The bytes encode no text. -/
  | undecodable (error : Text.Utf8.Error)
  deriving DecidableEq, Repr

/-- The wording of a fault. -/
def Fault.message : Fault → String
  | .connection text => text
  | .undecodable error => error.message

/-- The text of a message, from what its sender put on the wire. -/
def receive : Except String (List UInt8) → Except Fault (List Char)
  | .error text => .error (.connection text)
  | .ok bytes =>
      match Text.Utf8.decode (bytes.take Settings.service.receiveSize) with
      | .ok text => .ok text
      | .error error => .error (.undecodable error)

/-- The bytes of a message. -/
def send (message : String) : List UInt8 :=
  Text.Utf8.encode message.toList

end Reckon.Wire
