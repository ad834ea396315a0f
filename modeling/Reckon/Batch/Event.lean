import Reckon.Journal
import Reckon.Wire

/-!
# Events of a batch client

A batch client writes into its journal what it asked, what came back, and what
it concluded. As with the service, an event is a value and its wording stands in
one place. Most messages carry a reading of the clock; which moment it speaks of
depends on the event, so the reading is part of the entry.
-/

namespace Reckon.Batch

/-- An event in the life of a batch client. -/
inductive Event where
  /-- An expression was sent. -/
  | requested (expression : String)
  /-- No reply came back. -/
  | unanswered (expression : String) (fault : Wire.Fault)
  /-- The first attempt at an expression was rejected. -/
  | rejected (expression : String)
  /-- The first attempt at an expression was answered, after a wait in
  milliseconds. -/
  | answered (expression reply : String) (wait : Float)
  /-- A later attempt at an expression was answered. -/
  | answeredLate (expression reply : String)
  /-- The last attempt that the limit allows was rejected. -/
  | gaveUp (expression : String) (limit : Int)
  /-- All expressions are settled. -/
  | finished (tasks : Nat) (average : Option Float) (refusals : Nat)
  deriving DecidableEq

/-- The text that shows an average wait. Without any task it is a plain zero. -/
def averageText : Option Float → String
  | none => "0"
  | some average => Double.text average

/-- The wording of an event of the client with the given number. -/
def Event.message (client : Int) : Event → String
  | .requested expression => s!"[client {client}] requested {expression}"
  | .unanswered expression fault =>
      s!"[client {client}] no reply for {expression}: {fault.message}"
  | .rejected expression => s!"client {client} task rejected : {expression}"
  | .answered expression reply wait =>
      let shown := Double.text wait
      s!"[client {client}] task done : {expression} = {reply}, waited {shown}ms"
  | .answeredLate expression reply =>
      s!"client {client} retried task done : {expression} = {reply}"
  | .gaveUp expression limit => s!"client {client} gave up after {limit} retries : {expression}"
  | .finished tasks average refusals =>
      let shown := averageText average
      s!"client {client} - total tasks: {tasks}, average wait: {shown} ms, rejected: {refusals}"

/-- An event of a client, with the reading of the clock that its message
carries, if any. -/
structure Entry where
  client : Int
  reading : Option Float
  event : Event
  deriving DecidableEq

/-- The journal message of an entry. -/
def Entry.message (entry : Entry) : String :=
  match entry.reading with
  | none => entry.event.message entry.client
  | some reading => stampedAt reading (entry.event.message entry.client)

end Reckon.Batch
