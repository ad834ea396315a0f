import Reckon.Double.Layout
import Reckon.Double.Round

/-!
# Totals

The service counts the tasks of every client and adds up the times they took, in
milliseconds. Times that are whole numbers add up exactly; once a measured time
joins, the total is a double and stays one.

A whole number beyond the range of the doubles has no place in such a total:
`record?` refuses to add it to a measured time, or a measured time to it. Among
whole numbers it is as good as any other, and a total of measured times alone is
never refused.

The totals of all clients are a list of entries with distinct clients, in the
order of their first tasks. `record` changes the entry of one client only.
-/

namespace Reckon.Service

/-- A time in milliseconds: a whole number of any size, or a double. -/
inductive Duration where
  | whole (milliseconds : Int)
  | measured (milliseconds : Float)
  deriving DecidableEq

namespace Duration

/-- The double nearest to a time. -/
def toFloat : Duration → Float
  | .whole milliseconds => Double.ofInt milliseconds
  | .measured milliseconds => milliseconds

/-- The sum of two times. It is whole if both are; otherwise a whole number out
of range counts as infinite. -/
def add : Duration → Duration → Duration
  | .whole first, .whole second => .whole (first + second)
  | first, second => .measured (first.toFloat + second.toFloat)

/-- The time is a double already, or a whole number that rounds to a finite
double. -/
def isInRange : Duration → Bool
  | .whole milliseconds => Double.nearestBits milliseconds.natAbs 1 < Double.infiniteBits
  | .measured _ => true

/-- The sum of two times can be formed: both are whole, or both are in the range
of the doubles. -/
def canAdd : Duration → Duration → Bool
  | .whole _, .whole _ => true
  | first, second => first.isInRange && second.isInRange

/-- The text that shows a time. -/
def text : Duration → String
  | .whole milliseconds => toString milliseconds
  | .measured milliseconds => Double.text milliseconds

end Duration

/-- Why a task was not recorded. -/
inductive RecordError where
  /-- A whole number out of the range of the doubles meets a measured time. -/
  | outOfRange
  deriving DecidableEq, Repr

/-- The wording of a refusal. -/
def RecordError.message : RecordError → String
  | .outOfRange => "int too large to convert to float"

/-- What is recorded of one client: the number of its tasks and their total
time. -/
structure Total where
  tasks : Nat
  time : Duration
  deriving DecidableEq

namespace Total

/-- The total of a client without tasks. -/
def zero : Total := { tasks := 0, time := .whole 0 }

/-- A total with one more task, whose time is added behind the others. -/
def record (total : Total) (time : Duration) : Total :=
  { tasks := total.tasks + 1, time := total.time.add time }

/-- The average time of a task, to one decimal place. -/
def average (total : Total) : Float :=
  Double.round 1 (total.time.toFloat / Double.ofInt total.tasks)

end Total

/-- The totals of all clients, by client. -/
abbrev Totals := List (String × Total)

namespace Totals

/-- The total of a client; a client without tasks has the zero total. -/
def find (totals : Totals) (client : String) : Total :=
  match totals with
  | [] => .zero
  | (name, total) :: rest => if name = client then total else find rest client

/-- Record a task of a client. A new client comes last. -/
def record (totals : Totals) (client : String) (time : Duration) : Totals :=
  match totals with
  | [] => [(client, Total.zero.record time)]
  | (name, total) :: rest =>
      if name = client then (name, total.record time) :: rest
      else (name, total) :: record rest client time

/-- Record a task of a client, unless its time cannot be added to the client's
total. -/
def record? (totals : Totals) (client : String) (time : Duration) : Except RecordError Totals :=
  if (totals.find client).time.canAdd time then .ok (totals.record client time)
  else .error .outOfRange

/-- Record several tasks in order: the total of the client after each of them,
and the totals of all clients in the end. The first task that is refused ends
the recording. -/
def recordAll? (totals : Totals) :
    List (String × Duration) → Except RecordError (List Total × Totals)
  | [] => .ok ([], totals)
  | (client, time) :: rest =>
      match totals.record? client time with
      | .error error => .error error
      | .ok updated =>
          match recordAll? updated rest with
          | .error error => .error error
          | .ok (later, final) => .ok (updated.find client :: later, final)

/-- The entries in the order of their clients, code point by code point. -/
def sorted (totals : Totals) : List (String × Total) :=
  totals.mergeSort fun first second => first.1 ≤ second.1

/-- The total of a client after a task has been recorded. It changes only if the
task is its own. -/
theorem find_record (totals : Totals) (client other : String) (time : Duration) :
    find (record totals client time) other =
      if client = other then (find totals client).record time else find totals other := by
  induction totals with
  | nil => by_cases same : client = other <;> simp [record, find, same]
  | cons entry rest ih =>
    by_cases here : entry.1 = client <;> by_cases same : client = other <;>
      by_cases there : entry.1 = other <;> simp_all [record, find]

end Totals

end Reckon.Service
