import Reckon.Batch.Client
import Reckon.Batch.Sheet

/-!
# Many batch clients

One client is run for every expression file, numbered from 1 in the order of the
files. The clients share the network and run one after another. A client whose
file cannot be loaded reports nothing and asks for nothing, but keeps its
number.
-/

namespace Reckon.Batch

/-- What comes of running clients: the summaries of those that loaded their
files, by number, the failures of the others, and the network afterwards. -/
structure Outcome where
  summaries : List (Nat × Summary) := []
  failures : List SheetError := []
  network : Network

/-- The plan of the client with the given number, as the settings have it. -/
def standardPlan (number : Nat) : Plan :=
  { client := number, limit := Settings.batch.maxRetries, delay := Settings.batch.retryDelay }

/-- Run the client with the given number. -/
def Outcome.runClient (outcome : Outcome) (number : Nat) (sheet : Sheet) : Outcome :=
  match sheet.load with
  | .error error => { outcome with failures := outcome.failures ++ [error] }
  | .ok expressions =>
      let (summary, network) := (standardPlan number).run outcome.network expressions
      { outcome with summaries := outcome.summaries ++ [(number, summary)], network }

/-- Run a client for every file; the first of them has the given number. -/
def Outcome.runFrom (outcome : Outcome) (number : Nat) : List Sheet → Outcome
  | [] => outcome
  | sheet :: rest => (outcome.runClient number sheet).runFrom (number + 1) rest

/-- Run a client for every file. -/
def runAll (network : Network) (sheets : List Sheet) : Outcome :=
  Outcome.runFrom { network } 1 sheets

/-- The line that reports how many clients have run. -/
def Outcome.announcement (outcome : Outcome) : String :=
  s!"all expressions processed for {outcome.summaries.length} clients\n"

end Reckon.Batch
