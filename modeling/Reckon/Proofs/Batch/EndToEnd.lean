import Reckon.Batch.Fleet
import Reckon.Proofs.Batch.Served

/-!
# Every client gets its values

If every connection is served and every message fits into what is received at
once, then running a client for every file brings back the value of every
expression, or the word that it has none, in the order of the file. Nothing is
rejected, so nobody asks twice, and the service has counted for each client as
many tasks as its file has expressions.

`Fetches` is what a client gains by a number of expressions. It holds for a
single first attempt and adds up, so it holds for the loop over a file; the loop
over what has been set aside finds nothing to do. The clients of different files
have different names at the service, which keeps their totals apart.
-/

namespace Reckon.Batch

/-- An expression with its value, if it has one. -/
def valued (expression : String) : String × Option Float :=
  (expression, (evaluate expression.toList).toOption)

/-- The expression has no surrounding blanks, and the message with which the
client asks for it fits into what is received at once. -/
structure Fits (number : Nat) (expression : String) : Prop where
  size : (Wire.send (requestMessage number expression)).length ≤ Settings.service.receiveSize
  stripped : Text.strip expression.toList = expression.toList

/-- Different numbers have different names: the digits of a number can be read
back. -/
theorem toString_injective : Function.Injective (toString : Nat → String) := by
  intro first second same
  have digits : Nat.toDigits 10 first = Nat.toDigits 10 second := by
    simpa only [Nat.toString_eq_ofList_toDigits, String.ofList_inj] using same
  calc first
      = Nat.ofDigitChars 10 (Nat.toDigits 10 first) 0 := Nat.ofDigitChars_ten_toDigits.symm
    _ = Nat.ofDigitChars 10 (Nat.toDigits 10 second) 0 := by rw [digits]
    _ = second := Nat.ofDigitChars_ten_toDigits

/-- The expressions of a file have no surrounding blanks, because loading strips
every line. -/
theorem strip_of_load {sheet : Sheet} {expressions : List String}
    (loads : sheet.load = .ok expressions) :
    ∀ expression ∈ expressions, Text.strip expression.toList = expression.toList := by
  intro expression member
  unfold Sheet.load at loads
  split at loads
  · cases loads
  · split at loads
    · cases loads
      obtain ⟨field, listed, rfl⟩ := List.mem_map.mp member
      rw [String.toList_ofList]
      exact Text.strip_of_mem_fields listed
    · cases loads

/-! ## One client -/

/-- A client with the given number asks for expressions and gets what they are
worth, each at the first attempt. The service counts these tasks for this
client, and no others. What it has counted before is left open, so that the
gains of two stretches of work can be added. -/
structure Fetches (number : Nat) (listed : List String) (before after : Progress) : Prop where
  serves : after.network.Serves
  pending : after.pending = before.pending
  attempts : ∃ made : List Attempt, after.attempts = before.attempts ++ made ∧
    made.filterMap Attempt.result? = listed.map valued ∧
    ∀ attempt ∈ made, attempt.exchange.isRejected = false
  tasks : ∀ client : String, (after.network.served.find client).tasks =
    (before.network.served.find client).tasks +
      if toString number = client then listed.length else 0

namespace Fetches

variable {number : Nat} {plan : Plan} {progress : Progress}

theorem fetches_nothing (serves : progress.network.Serves) :
    Fetches number [] progress progress where
  serves := serves
  pending := rfl
  attempts := ⟨[], by simp, rfl, nofun⟩
  tasks client := by simp

/-- What is gained adds up: the results of the second stretch stand behind those
of the first, and the tasks of both are counted. -/
theorem fetches_append {first second : List String} {before between after : Progress}
    (earlier : Fetches number first before between) (later : Fetches number second between after) :
    Fetches number (first ++ second) before after := by
  obtain ⟨made, history, results, accepted⟩ := earlier.attempts
  obtain ⟨more, continued, others, unrejected⟩ := later.attempts
  constructor
  case serves => exact later.serves
  case pending => exact later.pending.trans earlier.pending
  case attempts =>
    refine ⟨made ++ more, ?_, ?_, ?_⟩
    · rw [continued, history, List.append_assoc]
    · rw [List.filterMap_append, results, others, List.map_append]
    · intro attempt member
      exact (List.mem_append.mp member).elim (accepted attempt) (unrejected attempt)
  case tasks =>
    intro client
    rw [later.tasks, earlier.tasks, List.length_append]
    split <;> omega

/-- After a first attempt the service has the totals that asking leaves it with.
Setting aside, waiting and writing to the journal do not reach the service. -/
theorem served_askFirst (position : Nat) (expression : String) :
    (Progress.askFirst plan progress position expression).network.served =
      (progress.network.ask plan.client expression).2.served := by
  cases rejected : (progress.network.ask plan.client expression).1.isRejected <;>
    simp [Progress.askFirst, Progress.ask, rejected, Progress.pause, Progress.note,
      Progress.setAside, Progress.remember, Network.wait, Network.write]

/-- The first attempt at an expression fetches its value. The reply is the text
of an outcome, which is never taken for a rejection, so nothing is set aside. -/
theorem fetches_askFirst (serves : progress.network.Serves) (named : plan.client = number)
    (position : Nat) {expression : String} (fits : Fits number expression) :
    Fetches number [expression] progress (Progress.askFirst plan progress position expression) := by
  obtain ⟨reply, time, recorded⟩ := Network.ask_of_serves serves fits.size fits.stripped
  rw [← named] at reply recorded
  have taken := progress.takes_askFirst plan position expression
  have accepted : (progress.network.ask plan.client expression).1.isRejected = false := by
    rw [Exchange.isRejected, reply]
    exact beq_false_of_ne (outcomeText_ne_rejection _)
  constructor
  case serves => exact serves.of_links taken.links taken.lastLink
  case pending => simp [Progress.askFirst, Progress.ask, accepted]
  case attempts =>
    refine ⟨_, taken.attempts, ?_, ?_⟩
    · simp [Attempt.result?, Attempt.isAnswered, Turn.attempt, accepted, reply,
        replyValue?_outcomeText, valued]
    · simpa [Turn.attempt] using accepted
  case tasks =>
    intro client
    rw [served_askFirst, recorded, Service.Totals.find_record]
    split
    · rename_i same
      rw [same]
      rfl
    · rfl

/-- The loop over a file fetches the values of all its expressions, by induction
on the file. -/
theorem fetches_askAll (serves : progress.network.Serves) (named : plan.client = number)
    (position : Nat) {listed : List String} (fits : ∀ expression ∈ listed, Fits number expression) :
    Fetches number listed progress (Progress.askAll plan progress position listed) := by
  induction listed generalizing progress position with
  | nil => exact fetches_nothing serves
  | cons expression rest ih =>
    have first := fetches_askFirst serves named position (fits expression List.mem_cons_self)
    have later := ih first.serves (position + 1)
      fun other member => fits other (List.mem_cons_of_mem _ member)
    exact first.fetches_append later

end Fetches

/-- The client reports the values of the expressions in their order, and no
rejection. -/
structure Summary.Reports (summary : Summary) (expressions : List String) : Prop where
  rejected : summary.rejected = 0
  tasks : summary.tasks = expressions.length
  results : summary.results = expressions.map valued

/-- A client that is served reports every value, and counts at the service with
as many tasks as it has expressions. The loop over what has been set aside finds
nothing to do. -/
theorem Plan.run_of_serves {plan : Plan} {network : Network} {number : Nat}
    (serves : network.Serves) (named : plan.client = number) {expressions : List String}
    (fits : ∀ expression ∈ expressions, Fits number expression) :
    (plan.run network expressions).1.Reports expressions ∧
      (plan.run network expressions).2.Serves ∧
      ∀ client : String, ((plan.run network expressions).2.served.find client).tasks =
        (network.served.find client).tasks +
          if toString number = client then expressions.length else 0 := by
  have fetches : Fetches number expressions { network } (plan.settle network expressions) := by
    have first : Fetches number expressions { network }
        (Progress.askAll plan { network } 0 expressions) :=
        Fetches.fetches_askAll serves named 0 fits
    rw [Plan.settle, Progress.askPending]
    split
    · exact first
    · rename_i waiting
      cases first.pending.symm.trans waiting
  obtain ⟨made, history, results, accepted⟩ := fetches.attempts
  rw [List.nil_append] at history
  refine ⟨⟨?_, rfl, ?_⟩, ⟨fetches.serves.listed, fetches.serves.last⟩, fetches.tasks⟩
  · refine List.countP_eq_zero.mpr fun attempt member => ?_
    simp [accepted attempt (history ▸ member)]
  · exact (congrArg (List.filterMap Attempt.result?) history).trans results

/-! ## All clients -/

namespace Outcome

variable {outcome : Outcome} {number : Nat}

/-- A client whose file loads and whose connections are served reports under its
number, and leaves a network that serves the next one. -/
theorem runClient_of_serves (serves : outcome.network.Serves) {sheet : Sheet}
    {expressions : List String} (loads : sheet.load = .ok expressions)
    (fits : ∀ expression ∈ expressions, Fits number expression) :
    (outcome.runClient number sheet).failures = outcome.failures ∧
      (∃ summary : Summary, summary.Reports expressions ∧
        (outcome.runClient number sheet).summaries = outcome.summaries ++ [(number, summary)]) ∧
      (outcome.runClient number sheet).network.Serves ∧
      ∀ client : String, ((outcome.runClient number sheet).network.served.find client).tasks =
        (outcome.network.served.find client).tasks +
          if toString number = client then expressions.length else 0 := by
  have named : (standardPlan number).client = number := rfl
  obtain ⟨reports, still, tasks⟩ := Plan.run_of_serves serves named fits
  unfold runClient
  rw [loads]
  exact ⟨rfl, ⟨_, reports, rfl⟩, still, tasks⟩

/-- Clients that are served, numbered from the given number on, all report. The
service counts the tasks of each under its own name, and none under any other.

The induction is on the files. It needs to know that the later clients count
nothing under the name of an earlier one, which is why the names are part of the
statement. -/
theorem runFrom_of_serves (serves : outcome.network.Serves) {sheets : List Sheet}
    {loaded : List (List String)} (loads : sheets.map Sheet.load = loaded.map Except.ok)
    (fits : ∀ index expressions, loaded[index]? = some expressions →
      ∀ expression ∈ expressions, Fits (number + index) expression) :
    (outcome.runFrom number sheets).failures = outcome.failures ∧
      (∀ client : String, (∀ index, toString (number + index) ≠ client) →
        ((outcome.runFrom number sheets).network.served.find client).tasks =
          (outcome.network.served.find client).tasks) ∧
      ∃ reports : List (Nat × Summary),
        (outcome.runFrom number sheets).summaries = outcome.summaries ++ reports ∧
        reports.map Prod.fst = List.range' number sheets.length ∧
        ∀ index expressions, loaded[index]? = some expressions →
          (∃ summary : Summary, reports[index]? = some (number + index, summary) ∧
            summary.Reports expressions) ∧
          ((outcome.runFrom number sheets).network.served.find (toString (number + index))).tasks =
            (outcome.network.served.find (toString (number + index))).tasks +
              expressions.length := by
  induction sheets generalizing outcome number loaded with
  | nil =>
    cases loaded with
    | nil => exact ⟨rfl, fun _ _ => rfl, [], (List.append_nil _).symm, rfl, nofun⟩
    | cons expressions others => cases loads
  | cons sheet rest ih =>
    cases loaded with
    | nil => cases loads
    | cons expressions others =>
      obtain ⟨load, loads⟩ := List.cons.inj loads
      have own : ∀ expression ∈ expressions, Fits number expression := fits 0 expressions rfl
      obtain ⟨complete, ⟨summary, reported, added⟩, still, counted⟩ :=
        runClient_of_serves serves load own
      have shift (index : Nat) : number + 1 + index = number + (index + 1) := by omega
      obtain ⟨failures, apart, reports, summaries, numbers, each⟩ :=
        ih still loads fun index listed found => shift index ▸ fits (index + 1) listed found
      refine ⟨failures.trans complete, ?_, (number, summary) :: reports, ?_, ?_, ?_⟩
      · intro client different
        have here : toString number ≠ client := different 0
        rw [runFrom, apart client fun index => shift index ▸ different (index + 1), counted,
          if_neg here, Nat.add_zero]
      · rw [runFrom, summaries, added, List.append_assoc]
        rfl
      · rw [List.map_cons, numbers, List.length_cons, List.range'_succ]
      · intro index listed found
        cases index with
        | zero =>
          -- The clients that follow have other names.
          have different (index : Nat) : toString (number + 1 + index) ≠ toString number :=
            toString_injective.ne (by omega)
          cases found
          refine ⟨⟨summary, rfl, reported⟩, ?_⟩
          simp only [Nat.add_zero]
          rw [runFrom, apart _ different, counted, if_pos rfl]
        | succ index =>
          have different : toString number ≠ toString (number + (index + 1)) :=
            toString_injective.ne (by omega)
          obtain ⟨report, tasks⟩ := each index listed found
          rw [shift] at report tasks
          rw [counted, if_neg different, Nat.add_zero] at tasks
          exact ⟨report, tasks⟩

end Outcome

/-- Run a client for every file, numbered from 1, over connections that are all
served. If all files load and every message fits into what is received at once,
every client reports. Its report lists the expressions of its file in their
order, each with its value, or with none if it has none. No request was
rejected, and the service has counted as many tasks for the client as its file
has expressions, whatever else it has counted before and for others.

Proof: one request comes back with the text of its outcome, since every stage of
its way undoes an earlier one (`Network.ask_of_serves`). So each first attempt
fetches a value, and what is fetched adds up over a file (`fetches_askAll`) and
over the clients (`runFrom_of_serves`). That loading strips the lines is what
makes an expression arrive unchanged, and that numbers have different names is
what keeps the counts apart. -/
theorem runAll_reports_every_value {network : Network} (serves : network.Serves)
    {sheets : List Sheet} {loaded : List (List String)}
    (loads : sheets.map Sheet.load = loaded.map Except.ok)
    (fits : ∀ index expressions, loaded[index]? = some expressions → ∀ expression ∈ expressions,
      (Wire.send (requestMessage (index + 1 : Nat) expression)).length ≤
        Settings.service.receiveSize) :
    (runAll network sheets).failures = [] ∧
      (runAll network sheets).summaries.map Prod.fst = List.range' 1 sheets.length ∧
      ∀ index expressions, loaded[index]? = some expressions →
        ∃ summary : Summary, (runAll network sheets).summaries[index]? = some (index + 1, summary) ∧
          summary.rejected = 0 ∧
          summary.tasks = expressions.length ∧
          summary.results = expressions.map (fun expression =>
            (expression, (evaluate expression.toList).toOption)) ∧
          ((runAll network sheets).network.served.find (toString (index + 1))).tasks =
            (network.served.find (toString (index + 1))).tasks + expressions.length := by
  have sendable : ∀ index expressions, loaded[index]? = some expressions →
      ∀ expression ∈ expressions, Fits (1 + index) expression := by
    intro index expressions found expression member
    have load := congrArg (·[index]?) loads
    simp only [List.getElem?_map, found, Option.map_some] at load
    obtain ⟨sheet, _, read⟩ := Option.map_eq_some_iff.mp load
    exact ⟨Nat.add_comm index 1 ▸ fits index expressions found expression member,
      strip_of_load read expression member⟩
  have start : (Outcome.network { network }).Serves := serves
  obtain ⟨failures, _, reports, summaries, numbers, each⟩ :=
    Outcome.runFrom_of_serves start loads sendable
  rw [List.nil_append] at summaries
  refine ⟨failures, (congrArg _ summaries).trans numbers, ?_⟩
  intro index expressions found
  obtain ⟨⟨summary, listed, reported⟩, tasks⟩ := each index expressions found
  rw [Nat.add_comm] at listed tasks
  exact ⟨summary, (congrArg (·[index]?) summaries).trans listed, reported.rejected, reported.tasks,
    reported.results, tasks⟩

/-- A network that serves, slowly at first. -/
def sampleNetwork : Network :=
  { links := [{ latency := 1500000, farEnd := .service }], lastLink := { farEnd := .service } }

/-- Two files, the first with a blank line, mixed line ends and a colon inside
an expression. -/
def sampleSheets : List Sheet :=
  [.holding (Wire.send " 10÷4 \r\n\n1:2+\n"), .holding (Wire.send "√9")]

/-- The second expression of the first file lacks an operand and has no value.
The colon in it is not the one that ends the name of the client. -/
theorem sampleSheets_are_reported :
    ∃ summary : Summary, (runAll sampleNetwork sampleSheets).summaries[0]? = some (1, summary) ∧
      summary.results = [("10÷4", some 2.5), ("1:2+", none)] ∧
      ((runAll sampleNetwork sampleSheets).network.served.find "1").tasks = 2 := by
  have serves : sampleNetwork.Serves :=
    { listed := fun link member => List.mem_singleton.mp member ▸ ⟨rfl, rfl, rfl, rfl⟩
      last := ⟨rfl, rfl, rfl, rfl⟩ }
  have loads : sampleSheets.map Sheet.load = [["10÷4", "1:2+"], ["√9"]].map Except.ok := by
    decide +kernel
  have fits : ∀ index expressions, [["10÷4", "1:2+"], ["√9"]][index]? = some expressions →
      ∀ expression ∈ expressions, (Wire.send (requestMessage (index + 1 : Nat) expression)).length ≤
        Settings.service.receiveSize := by
    intro index expressions found
    match index with
    | 0 | 1 =>
      cases found
      decide +kernel
    | _ + 2 => cases found
  obtain ⟨_, _, each⟩ := runAll_reports_every_value serves loads fits
  obtain ⟨summary, listed, _, _, results, tasks⟩ := each 0 _ rfl
  have quotient : (evaluate "10÷4".toList).toOption = some 2.5 := by decide +kernel
  have nothing : (evaluate "1:2+".toList).toOption = none := by decide +kernel
  refine ⟨summary, listed, results.trans ?_, tasks⟩
  rw [List.map_cons, List.map_cons, List.map_nil, quotient, nothing]

end Reckon.Batch
