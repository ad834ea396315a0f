import Reckon.Batch.Network
import Reckon.Numeral

/-!
# Asking for one expression

A client asks the service for the value of one expression and measures, on the
clock, how long that takes. Whatever goes wrong on the way is noted, and counts
as an empty reply.
-/

namespace Reckon.Batch

/-- What came of asking for an expression: the reply, the reading of the clock
before, and the wait in milliseconds. -/
structure Exchange where
  reply : String
  start : Float
  wait : Float
  deriving DecidableEq

/-- The reply says that the queue of the service was full. -/
def Exchange.isRejected (exchange : Exchange) : Bool :=
  exchange.reply == Settings.rejection

/-- The value that a reply stands for. A rejection, a failure and anything else
that is not a numeral stand for none. -/
def replyValue? (reply : String) : Option Float :=
  Numeral.read? reply.toList

/-- The message that asks for an expression. -/
def requestMessage (client : Int) (expression : String) : String :=
  s!"{client}:{expression}"

/-- Ask for the value of an expression. -/
def Network.ask (network : Network) (client : Int) (expression : String) : Exchange × Network :=
  let start := network.reading
  let asked := network.write { client, reading := some start, event := .requested expression }
  let (received, answered) := asked.exchange (requestMessage client expression)
  let wait := Double.round 1 (answered.reading - start)
  match received with
  | .ok reply => ({ reply, start, wait }, answered)
  | .error fault =>
      let event := Event.unanswered expression fault
      ({ reply := "", start, wait },
        answered.write { client, reading := some answered.reading, event })

end Reckon.Batch
