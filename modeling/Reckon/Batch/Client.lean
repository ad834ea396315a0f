import Reckon.Batch.Exchange
import Reckon.Weight

/-!
# A batch client

A client asks for the expressions of its file one after another. An expression
whose request is rejected is set aside, and when all have been asked for, the
client goes back to those set aside, the longest waiting first. A request that
is rejected again goes to the end, until the limit of resends is reached; then
the client gives the expression up. Every other reply, or none, settles the
expression.

A client remembers its attempts in order. What it reports in the end is read off
this history, and expressions are told apart by their positions in the file, so
that the same expression may occur twice.
-/

namespace Reckon.Batch

/-- What a client goes by: its number, the limit of resends, and the delay
between requests in seconds. Even a limit below one allows one resend. -/
structure Plan where
  client : Int
  limit : Int
  delay : Float

/-- The number of resends that a plan allows. It is at least one, because the
limit is compared only after a resend has been rejected. -/
def Plan.resends (plan : Plan) : Nat :=
  max 1 plan.limit.toNat

/-- One attempt at an expression: its position in the file, how many resends
there were including this one, what came of it, and whether the client gave the
expression up. -/
structure Attempt where
  position : Nat
  expression : String
  resend : Nat
  exchange : Exchange
  gaveUp : Bool := false
  deriving DecidableEq

/-- The attempt settled its expression by a reply other than a rejection. -/
def Attempt.isAnswered (attempt : Attempt) : Bool :=
  !attempt.exchange.isRejected

/-- An expression set aside, with the number of its resends so far. -/
structure Pending where
  position : Nat
  expression : String
  resends : Nat
  deriving DecidableEq

/-- The progress of a client. -/
structure Progress where
  network : Network
  attempts : List Attempt := []
  pending : List Pending := []

/-- What a client reports: its results in the order in which they were settled,
the number of expressions, the average wait if there was any expression, and the
number of expressions whose first request was rejected. -/
structure Summary where
  results : List (String × Option Float)
  tasks : Nat
  average : Option Float
  rejected : Nat
  deriving DecidableEq

/-- The result that an attempt settles, if it settles one. -/
def Attempt.result? (attempt : Attempt) : Option (String × Option Float) :=
  if attempt.isAnswered then some (attempt.expression, replyValue? attempt.exchange.reply)
  else if attempt.gaveUp then some (attempt.expression, none)
  else none

/-- The waits for the replies that settled an expression, added up in order. -/
def totalWait (attempts : List Attempt) : Float :=
  (attempts.filter Attempt.isAnswered).foldl (fun total attempt => total + attempt.exchange.wait) 0

/-- The report on a history of attempts at a number of expressions. -/
def summarize (tasks : Nat) (attempts : List Attempt) : Summary :=
  { results := attempts.filterMap Attempt.result?
    tasks
    average :=
      if tasks = 0 then none
      else some (Double.round 1 (totalWait attempts / Double.ofInt tasks))
    rejected := attempts.countP fun attempt =>
      attempt.resend == 0 && attempt.exchange.isRejected }

namespace Progress

open scoped Weight

/-- Note an event, with the reading of the clock that its message carries. -/
def note (progress : Progress) (plan : Plan) (reading : Option Float) (event : Event) : Progress :=
  { progress with
    network := progress.network.write { client := plan.client, reading, event } }

/-- Wait between two requests. -/
def pause (progress : Progress) (plan : Plan) : Progress :=
  { progress with network := progress.network.wait (Clock.microseconds plan.delay) }

/-- Remember an attempt. -/
def remember (progress : Progress) (attempt : Attempt) : Progress :=
  { progress with attempts := progress.attempts ++ [attempt] }

/-- Set an expression aside behind those that already are. -/
def setAside (progress : Progress) (item : Pending) : Progress :=
  { progress with pending := progress.pending ++ [item] }

/-- Ask for an expression. -/
def ask (progress : Progress) (plan : Plan) (expression : String) : Exchange × Progress :=
  let (exchange, network) := progress.network.ask plan.client expression
  (exchange, { progress with network })

/-- Only `setAside` sets anything aside. -/
@[simp]
theorem pending_note (progress : Progress) (plan : Plan) (reading : Option Float) (event : Event) :
    (progress.note plan reading event).pending = progress.pending := rfl

@[simp]
theorem pending_pause (progress : Progress) (plan : Plan) :
    (progress.pause plan).pending = progress.pending := rfl

@[simp]
theorem pending_remember (progress : Progress) (attempt : Attempt) :
    (progress.remember attempt).pending = progress.pending := rfl

@[simp]
theorem pending_setAside (progress : Progress) (item : Pending) :
    (progress.setAside item).pending = progress.pending ++ [item] := rfl

@[simp]
theorem pending_ask (progress : Progress) (plan : Plan) (expression : String) :
    (progress.ask plan expression).2.pending = progress.pending := rfl

/-- The first attempt at an expression. -/
def askFirst (plan : Plan) (progress : Progress) (position : Nat) (expression : String) :
    Progress :=
  let (exchange, asked) := progress.ask plan expression
  let tried := asked.remember { position, expression, resend := 0, exchange }
  let noted :=
    if exchange.isRejected then
      (tried.note plan (some tried.network.reading) (.rejected expression)).setAside
        { position, expression, resends := 0 }
    else
      tried.note plan (some exchange.start) (.answered expression exchange.reply exchange.wait)
  noted.pause plan

/-- The first attempts at expressions whose positions start at the given one, in
the order of the file. -/
def askAll (plan : Plan) (progress : Progress) (position : Nat) : List String → Progress
  | [] => progress
  | expression :: rest =>
    askAll plan (askFirst plan progress position expression) (position + 1) rest

/-- Another attempt at an expression that has just ceased to be set aside. -/
def askAgain (plan : Plan) (progress : Progress) (item : Pending) : Progress :=
  let (exchange, asked) := progress.ask plan item.expression
  let resend := item.resends + 1
  let givesUp := exchange.isRejected && plan.resends ≤ resend
  let tried := asked.remember
    { position := item.position
      expression := item.expression
      resend
      exchange
      gaveUp := givesUp }
  if givesUp then
    tried.note plan (some tried.network.reading) (.gaveUp item.expression plan.limit)
  else if exchange.isRejected then
    (tried.setAside { item with resends := resend }).pause plan
  else
    tried.note plan (some exchange.start) (.answeredLate item.expression exchange.reply)

/-- The number of attempts that the expressions set aside can still take. It
decreases with every attempt, which is why the second loop ends. -/
def resendsLeft (plan : Plan) (pending : List Pending) : Nat :=
  (pending.map fun item => plan.resends - item.resends + 1).sum

/-- After another attempt an expression is either no longer set aside, or it is
the last that is, and may take fewer attempts than before. -/
theorem pending_askAgain (plan : Plan) (progress : Progress) (item : Pending) :
    (askAgain plan progress item).pending = progress.pending ∨
      (askAgain plan progress item).pending =
          progress.pending ++ [{ item with resends := item.resends + 1 }] ∧
        item.resends + 1 < plan.resends := by
  cases rejected : (progress.ask plan item.expression).1.isRejected with
  | false => exact Or.inl (by simp [askAgain, rejected])
  | true =>
    by_cases last : plan.resends ≤ item.resends + 1
    · exact Or.inl (by simp [askAgain, rejected, last])
    · exact Or.inr ⟨by simp [askAgain, rejected, last], by omega⟩

/-- Go on with the expressions set aside, the first of them first, until none is
left. One that is rejected again is set aside behind the others. -/
def askPending (plan : Plan) (progress : Progress) : Progress :=
  match _waiting : progress.pending with
  | [] => progress
  | item :: rest => askPending plan (askAgain plan { progress with pending := rest } item)
termination_by resendsLeft plan progress.pending
decreasing_by
  rw [_waiting]
  rcases pending_askAgain plan { progress with pending := rest } item with settled | ⟨kept, fewer⟩
  · simp only [settled, resendsLeft, List.map_cons, List.sum_cons]
    omega
  · simp only [kept, resendsLeft, List.map_append, List.sum_append, List.map_cons, List.map_nil,
      List.sum_cons, List.sum_nil]
    omega

end Progress

/-- The progress of a client that has settled every expression: a loop over the
file is followed by one over what it has set aside. -/
def Plan.settle (plan : Plan) (network : Network) (expressions : List String) : Progress :=
  Progress.askPending plan (Progress.askAll plan { network } 0 expressions)

/-- Settle every expression and report. The report is also the last event of the
client's journal. -/
def Plan.run (plan : Plan) (network : Network) (expressions : List String) : Summary × Network :=
  let progress := plan.settle network expressions
  let summary := summarize expressions.length progress.attempts
  let event := Event.finished summary.tasks summary.average summary.rejected
  (summary, (progress.note plan none event).network)

end Reckon.Batch
