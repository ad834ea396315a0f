import Reckon.Evaluation
import Reckon.Journal
import Reckon.Service.Request
import Reckon.Service.Totals
import Reckon.Wire

/-!
# Events of the service

Whatever the service writes into its journal is an event: what happened, to
which request, and why. The wording of all events is in one place,
`Event.message`, and an entry of the journal is an event with the time at which
it happened.
-/

namespace Reckon.Service

/-- The address of one end of a connection. -/
structure Address where
  host : String
  portNumber : Nat
  deriving DecidableEq, Repr

/-- The text that shows an address. -/
def Address.text (address : Address) : String :=
  s!"('{address.host}', {address.portNumber})"

/-- An event in the life of the service. -/
inductive Event where
  /-- The service listens. -/
  | started (address : Address)
  /-- A connection brought no request. -/
  | noRequest (caller : Address) (fault : Wire.Fault)
  /-- A request found the queue full. -/
  | rejected (request : Request)
  /-- The reply to a rejected request was not delivered. -/
  | rejectionLost (request : Request) (fault : String)
  /-- A request entered the queue. -/
  | queued (request : Request)
  /-- No more connections are accepted. -/
  | acceptorStopped
  /-- The dispatcher took a task from the queue. -/
  | taken (request : Request)
  /-- The dispatcher found every worker busy. -/
  | allBusy
  /-- The dispatcher gave a task to a worker. -/
  | assigned (request : Request)
  /-- The dispatcher has told every worker to stop. -/
  | dispatcherStopped
  /-- An expression has no value. -/
  | failed (request : Request) (error : EvalError)
  /-- The reply to a processed request was not delivered. -/
  | replyLost (request : Request) (fault : String)
  /-- A request has been processed in a time in milliseconds. -/
  | processed (request : Request) (reply : String) (time : Float)
  /-- The totals of a client after a task. -/
  | totalled (client : String) (total : Total)
  deriving DecidableEq

namespace Event

/-- The wording of an event. -/
def message : Event → String
  | .started address => "server started on " ++ address.text
  | .noRequest caller fault => "bad request from " ++ caller.text ++ ": " ++ fault.message
  | .rejected request =>
      s!"client {request.client} task rejected, queue is full: {request.expression}"
  | .rejectionLost request fault => s!"client {request.client} reject reply failed: {fault}"
  | .queued request =>
      s!"client {request.client} requested {request.expression}. assigned to waiting thread"
  | .acceptorStopped => "server socket closed, waiting thread stopped"
  | .taken request => s!"waiting thread >> management thread {request.expression}"
  | .allBusy => "thread is full!"
  | .assigned request => s!"management thread >> calculate thread {request.expression}"
  | .dispatcherStopped => "management thread stopped"
  | .failed request error =>
      s!"client {request.client} {request.expression} failed: {error.kind}: {error.message}"
  | .replyLost request fault => s!"client {request.client} reply failed: {fault}"
  | .processed request reply time =>
      let shown := Double.text time
      s!"task done. sent to client {request.client} : {request.expression} = {reply}, " ++
        s!"op time : {shown}ms"
  | .totalled client total =>
      let time := total.time.text
      let average := Double.text total.average
      s!"client {client} total tasks : {total.tasks}, total op time : {time}ms, " ++
        s!"average op time : {average}ms"

end Event

/-- An event and the time at which it happened, in microseconds. -/
structure Entry where
  elapsed : Int
  event : Event
  deriving DecidableEq

/-- The journal message of an entry. -/
def Entry.message (entry : Entry) : String :=
  stamped entry.elapsed entry.event.message

end Reckon.Service
