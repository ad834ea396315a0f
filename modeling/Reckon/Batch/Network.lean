import Reckon.Batch.Event
import Reckon.Service.Call

/-!
# The network of a batch client

Every connection that a client makes runs over a *link*. A link has a latency,
may fail at one of three points, and leads either to a fixed reply or to the
service. The links of the first connections are listed, and all later
connections have the same one.

The network also keeps the time and remembers what passed over it: the requests
that were sent, the totals of the service at its far end, and the journal
entries of both sides in order.
-/

namespace Reckon.Batch

/-- The far end of a link. -/
inductive FarEnd where
  | service
  | fixed (reply : List UInt8)

/-- The behaviour of one connection. The latency, in microseconds, passes before
anything else. -/
structure Link where
  latency : Int := 0
  connectFault : Option String := none
  sendFault : Option String := none
  receiveFault : Option String := none
  farEnd : FarEnd

/-- A journal entry of the service or of a client. -/
inductive Line where
  | service (entry : Service.Entry)
  | client (entry : Entry)
  deriving DecidableEq

/-- The journal message of an entry. -/
def Line.message : Line → String
  | .service entry => entry.message
  | .client entry => entry.message

/-- The state of the network: the links still to be used, the time that has
passed, what the service has recorded, the requests that have reached it, and
both journals. -/
structure Network where
  links : List Link
  lastLink : Link
  elapsed : Int := 0
  served : Service.Totals := []
  requests : List String := []
  lines : List Line := []

namespace Network

/-- The reading of the clock. -/
def reading (network : Network) : Float :=
  Clock.reading network.elapsed

/-- Let time pass. -/
def wait (network : Network) (duration : Int) : Network :=
  { network with elapsed := network.elapsed + duration }

/-- Write an entry into a client's journal. -/
def write (network : Network) (entry : Entry) : Network :=
  { network with lines := network.lines ++ [.client entry] }

/-- The service at the far end answers a request. -/
def serve (network : Network) (request : List UInt8) : List UInt8 × Network :=
  let report := Service.answer network.served request
  let entries := report.events.map fun event =>
    Line.service { elapsed := network.elapsed, event }
  (Wire.send report.delivered,
    { network with served := report.totals, lines := network.lines ++ entries })

/-- The bytes that come back over a link for a message that was sent. -/
def reply (network : Network) (link : Link) (message : String) : List UInt8 × Network :=
  match link.farEnd with
  | .service => network.serve (Wire.send message)
  | .fixed bytes => (bytes, network)

/-- Receive a text as a string. -/
def receiveText (incoming : Except String (List UInt8)) : Except Wire.Fault String :=
  (Wire.receive incoming).map String.ofList

/-- Send a message over the next connection and receive the reply. Every
exchange uses one link, and when the listed ones are used up, the last link
serves again and again. -/
def exchange (network : Network) (message : String) : Except Wire.Fault String × Network :=
  let link := network.links.headD network.lastLink
  let arrived := { network.wait link.latency with links := network.links.tail }
  match link.connectFault.or link.sendFault with
  | some text => (.error (.connection text), arrived)
  | none =>
      let sent := { arrived with requests := arrived.requests ++ [message] }
      match link.receiveFault with
      | some text => (receiveText (.error text), sent)
      | none =>
          let (bytes, answered) := sent.reply link message
          (receiveText (.ok bytes), answered)

/-- The journal messages of both sides, in order. -/
def messages (network : Network) : List String :=
  network.lines.map Line.message

/-- The journal messages of the clients alone, in order. -/
def clientMessages (network : Network) : List String :=
  network.lines.filterMap fun
    | .service _ => none
    | .client entry => some entry.message

end Network

end Reckon.Batch
