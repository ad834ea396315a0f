import Reckon.Service.Run

/-!
# The service in sequence

What a server does with its callers can be said without threads. Between two
pauses all connections arrive before any request is processed, so the pauses cut
the arrivals into batches. Within a batch the first requests are accepted, up to
the capacity of the queue, and the others are rejected; then those accepted are
processed one after another in the order of arrival.
-/

namespace Reckon.Service.Sequential

/-- A connection: what its caller has sent, and whether a reply can be sent
back. -/
structure Call where
  incoming : Except String (List UInt8)
  sendFault : Option String

/-- What becomes of a connection when it is accepted. -/
inductive Reception where
  /-- It brought no request. -/
  | dropped
  /-- Its request found the queue full. -/
  | rejected
  /-- Its request is to be processed. -/
  | accepted (request : Request)

/-- Cut arrivals into batches at the pauses. There is always a first batch, even
if it is empty. -/
def batches : List Arrival → List (List Call)
  | [] => [[]]
  | .pause _ :: later => [] :: batches later
  | .call _ incoming sendFault :: later =>
      match batches later with
      | [] => [[{ incoming, sendFault }]]
      | batch :: rest => ({ incoming, sendFault } :: batch) :: rest

/-- Receive the calls of a batch when some requests of the batch have already
been accepted. Nothing is processed in the meantime, so a request is rejected as
soon as the batch has filled the queue. -/
def receive (capacity accepted : Nat) : List Call → List (Call × Reception)
  | [] => []
  | call :: later =>
      match Wire.receive call.incoming with
      | .error _ => (call, .dropped) :: receive capacity accepted later
      | .ok text =>
          if capacity = 0 ∨ accepted < capacity then
            (call, .accepted (Request.ofText text)) :: receive capacity (accepted + 1) later
          else (call, .rejected) :: receive capacity accepted later

/-- The service so far: the texts that reached the callers in the order of their
connections, the totals, and the readings of the timer still to come. -/
structure Progress where
  delivered : List String := []
  totals : Totals := []
  timer : List Float

/-- Deal with one connection of a batch. -/
def Progress.settle (progress : Progress) (received : Call × Reception) : Progress :=
  match received.2 with
  | .dropped => { progress with delivered := progress.delivered ++ [""] }
  | .rejected =>
      let text := delivery Settings.rejection received.1.sendFault
      { progress with delivered := progress.delivered ++ [text] }
  | .accepted request =>
      let timing : Timing :=
        { start := progress.timer.headD 0, finish := progress.timer.tail.headD 0 }
      let report := process progress.totals request timing received.1.sendFault
      { delivered := progress.delivered ++ [report.delivered]
        totals := report.totals
        timer := progress.timer.drop 2 }

/-- Serve the arrivals, batch by batch. There are no threads here: a batch is
received as a whole, and then its requests are processed in their order. -/
def serve (capacity : Nat) (timer : List Float) (arrivals : List Arrival) : Progress :=
  (batches arrivals).foldl
    (fun progress batch => (receive capacity 0 batch).foldl Progress.settle progress) { timer }

end Reckon.Service.Sequential
