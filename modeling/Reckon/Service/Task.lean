import Reckon.Service.Event

/-!
# Processing a task

A worker evaluates the expression of a request between two readings of a timer,
records the time for the client, and sends the outcome back. The client's totals
count the task whether or not the reply is delivered; a reply that is lost only
adds an event of its own. The times recorded here are all measured, and measured
times always add up, so the recording needs no check.
-/

namespace Reckon.Service

/-- The two readings of the timer around an evaluation, in seconds. -/
structure Timing where
  start : Float
  finish : Float

/-- The time between the readings in milliseconds, to three decimal places. -/
def Timing.milliseconds (timing : Timing) : Float :=
  Double.round 3 ((timing.finish - timing.start) * 1000)

/-- The result of processing a task: the text that reached the client, the
totals of all clients, and the events in order. -/
structure Report where
  delivered : String
  totals : Totals
  events : List Event

/-- The event of an evaluation that failed, if it did. -/
def failureEvents (request : Request) : Except EvalError Float → List Event
  | .ok _ => []
  | .error error => [.failed request error]

/-- The event of a lost reply, if it was lost. -/
def lossEvents (lost : String → Event) : Option String → List Event
  | none => []
  | some fault => [lost fault]

/-- The text that reaches the client: all of it, or nothing. -/
def delivery (reply : String) : Option String → String
  | none => reply
  | some _ => ""

/-- Process a request. If sending the reply fails, `fault` holds the words of
the network. -/
def process (totals : Totals) (request : Request) (timing : Timing) (fault : Option String) :
    Report :=
  let outcome := evaluate request.expression.toList
  let reply := outcomeText outcome
  let time := timing.milliseconds
  let updated := totals.record request.client (.measured time)
  { delivered := delivery reply fault
    totals := updated
    events := failureEvents request outcome ++ lossEvents (.replyLost request) fault ++
      [.processed request reply time, .totalled request.client (updated.find request.client)] }

end Reckon.Service
