import Mathlib.Algebra.BigOperators.Group.List.Basic
import Mathlib.Algebra.Ring.Int.Defs
import Reckon.Service.Totals

/-!
# Clients do not share totals

Tasks of several clients are recorded one after another. What matters to a
client are its own tasks and their order: the entries of a client are what
recording its tasks alone would give (`Totals.entriesOf_recordEach`), and so is
what the recording of each of them returns (`Totals.returnsOf_reports`).
Therefore it makes no difference how the tasks of different clients are
interleaved.

The time of a client is the sum of the times of its tasks from the first to the
last. A sum of whole numbers does not depend on their order; a sum of doubles
may.

No task is refused as long as all times are whole numbers, or all are measured.
In the first case the totals stay whole, and in the second they stay in the
range of the doubles.
-/

namespace Reckon.Service

/-! ## The tasks of one client -/

def Duration.isWhole : Duration → Bool
  | .whole _ => true
  | .measured _ => false

/-- The whole number of a time; a measured time counts as zero. -/
def Duration.wholePart : Duration → Int
  | .whole milliseconds => milliseconds
  | .measured _ => 0

/-- The total of tasks that took the given times, added up from the first to the
last. -/
def Total.ofTimes (times : List Duration) : Total :=
  { tasks := times.length, time := times.foldl Duration.add (.whole 0) }

/-- All times are whole numbers, or all are measured. A mixture could be
refused, as a whole number may be beyond the doubles. -/
def Uniform (tasks : List (String × Duration)) : Prop :=
  ∃ whole, ∀ task ∈ tasks, task.2.isWhole = whole

/-- The tasks of a client, in their order. -/
def tasksOf (client : String) (tasks : List (String × Duration)) : List (String × Duration) :=
  tasks.filter (·.1 = client)

def timesOf (client : String) (tasks : List (String × Duration)) : List Duration :=
  (tasksOf client tasks).map (·.2)

/-- What has been returned for the tasks of a client. Tasks and returned totals
are paired by their positions. -/
def returnsOf (client : String) (tasks : List (String × Duration)) (returned : List Total) :
    List Total :=
  ((tasks.zip returned).filter (·.1.1 = client)).map (·.2)

section Sums

variable {times others : List Duration}

theorem foldl_record (total : Total) (times : List Duration) :
    times.foldl Total.record total =
      { tasks := total.tasks + times.length, time := times.foldl Duration.add total.time } := by
  induction times generalizing total with
  | nil => rfl
  | cons time rest ih =>
    rw [List.foldl_cons, ih, List.length_cons, List.foldl_cons, Total.record, Nat.add_assoc,
      Nat.add_comm 1]

theorem foldl_add_whole (start : Int) (whole : ∀ time ∈ times, time.isWhole = true) :
    times.foldl Duration.add (.whole start) =
      .whole (start + (times.map Duration.wholePart).sum) := by
  induction times generalizing start with
  | nil => simp
  | cons time rest ih =>
    obtain ⟨first, others⟩ := List.forall_mem_cons.mp whole
    cases time with
    | whole milliseconds =>
      have added :
          Duration.add (.whole start) (.whole milliseconds) = .whole (start + milliseconds) := rfl
      rw [List.foldl_cons, added, ih _ others, List.map_cons, List.sum_cons, Int.add_assoc]
      rfl
    | measured milliseconds => cases first

/-- The order of whole times makes no difference to their total, since a sum of
whole numbers does not depend on it. -/
theorem ofTimes_perm (reordered : others.Perm times) (whole : ∀ time ∈ times, time.isWhole = true) :
    Total.ofTimes others = Total.ofTimes times := by
  have alike : ∀ time ∈ others, time.isWhole = true :=
    fun time member => whole time (reordered.mem_iff.mp member)
  rw [Total.ofTimes, Total.ofTimes, foldl_add_whole 0 whole, foldl_add_whole 0 alike,
    reordered.length_eq, (reordered.map Duration.wholePart).sum_eq]

end Sums

theorem mem_of_tasksOf {tasks others : List (String × Duration)}
    (same : ∀ client, tasksOf client others = tasksOf client tasks) {task : String × Duration}
    (member : task ∈ others) : task ∈ tasks := by
  have own : task ∈ tasksOf task.1 others := List.mem_filter.mpr ⟨member, by simp⟩
  rw [same] at own
  exact (List.mem_filter.mp own).1

namespace Totals

variable {totals : Totals} {whole : Bool} {tasks : List (String × Duration)}

/-! ## No task is refused -/

/-- The time of every client is in the range of the doubles. -/
def InRange (totals : Totals) : Prop :=
  ∀ client, (totals.find client).time.isInRange = true

/-- A measured time can be added to totals in range. Only whole totals can be
out of it. -/
theorem InRange.record?_of_inRange (inRange : totals.InRange) (client : String) (time : Float) :
    totals.record? client (.measured time) = .ok (totals.record client (.measured time)) := by
  refine if_pos ?_
  have before := inRange client
  cases total : (totals.find client).time with
  | whole milliseconds =>
    rw [total] at before
    exact Bool.and_eq_true_iff.mpr ⟨before, rfl⟩
  | measured milliseconds => rfl

theorem InRange.inRange_record (inRange : totals.InRange) (client : String) (time : Float) :
    (totals.record client (.measured time)).InRange := by
  intro other
  rw [find_record]
  split
  · simp only [Total.record]
    cases (totals.find client).time <;> rfl
  · exact inRange other

theorem inRange_nil : InRange [] := by
  intro client
  have whole : (Duration.whole 0).isInRange = true := by decide +kernel
  exact whole

/-- Further times can be added to the totals, if they are whole, or measured.
Whole times suit whole totals, however great these are. -/
def Suits (totals : Totals) : (whole : Bool) → Prop
  | true => ∀ client, (totals.find client).time.isWhole = true
  | false => totals.InRange

theorem suits_nil (whole : Bool) : Suits [] whole := by
  cases whole with
  | true => exact fun _ => rfl
  | false => exact inRange_nil

/-- A time that suits the totals is recorded, and the totals suit further times
of its kind. This is the invariant behind the recording of uniform tasks. -/
theorem Suits.suits_record (suits : totals.Suits whole) (client : String) {time : Duration}
    (kind : time.isWhole = whole) :
    totals.record? client time = .ok (totals.record client time) ∧
      (totals.record client time).Suits whole := by
  cases time with
  | measured milliseconds =>
    subst kind
    have inRange : totals.InRange := suits
    exact ⟨inRange.record?_of_inRange client milliseconds,
      inRange.inRange_record client milliseconds⟩
  | whole milliseconds =>
    subst kind
    have allWhole : ∀ other, (totals.find other).time.isWhole = true := suits
    cases total : (totals.find client).time with
    | measured other => exact absurd (total ▸ allWhole client) nofun
    | whole other =>
      refine ⟨if_pos (by rw [total]; rfl), fun name => ?_⟩
      rw [find_record]
      split
      · rw [Total.record, total]
        rfl
      · exact allWhole name

/-! ## Tasks in order -/

def recordEach (totals : Totals) (tasks : List (String × Duration)) : Totals :=
  tasks.foldl (fun totals task => totals.record task.1 task.2) totals

def reports (totals : Totals) : List (String × Duration) → List Total
  | [] => []
  | (client, time) :: rest =>
      (totals.record client time).find client :: reports (totals.record client time) rest

/-- Tasks whose times suit the totals are all recorded. From here on, the
recording can be followed without its refusals. -/
theorem recordAll?_of_suits (suits : totals.Suits whole)
    (kind : ∀ task ∈ tasks, task.2.isWhole = whole) :
    totals.recordAll? tasks = .ok (totals.reports tasks, totals.recordEach tasks) := by
  induction tasks generalizing totals with
  | nil => rfl
  | cons task rest ih =>
    obtain ⟨first, others⟩ := List.forall_mem_cons.mp kind
    obtain ⟨recorded, still⟩ := suits.suits_record task.1 first
    simp only [recordAll?, recorded, ih still others]
    rfl

theorem recordAll?_of_uniform (uniform : Uniform tasks) :
    recordAll? [] tasks = .ok (reports [] tasks, recordEach [] tasks) := by
  obtain ⟨whole, kind⟩ := uniform
  exact recordAll?_of_suits (suits_nil whole) kind

theorem length_reports (totals : Totals) (tasks : List (String × Duration)) :
    (totals.reports tasks).length = tasks.length := by
  induction tasks generalizing totals with
  | nil => rfl
  | cons task rest ih => exact congrArg (· + 1) (ih _)

/-- Later tasks do not change what earlier ones have returned. -/
theorem reports_append (totals : Totals) (tasks more : List (String × Duration)) :
    totals.reports (tasks ++ more) =
      totals.reports tasks ++ (totals.recordEach tasks).reports more := by
  induction tasks generalizing totals with
  | nil => rfl
  | cons task rest ih => exact congrArg (_ :: ·) (ih _)

/-- A task returns the total of its client when the tasks up to this one have
been recorded. -/
theorem getElem?_reports (totals : Totals) (tasks : List (String × Duration)) (index : Nat) :
    (totals.reports tasks)[index]? =
      tasks[index]?.map fun task => (totals.recordEach (tasks.take (index + 1))).find task.1 := by
  induction tasks generalizing totals index with
  | nil => rfl
  | cons task rest ih =>
    cases index with
    | zero => rfl
    | succ index => exact ih _ index

/-! ## The entries of one client -/

/-- The entries of a client, of which there is one at most. -/
def entriesOf (client : String) (totals : Totals) : Totals :=
  totals.filter (·.1 = client)

theorem find_entriesOf (totals : Totals) (client : String) :
    (entriesOf client totals).find client = totals.find client := by
  induction totals with
  | nil => rfl
  | cons entry rest ih =>
    rw [entriesOf] at ih ⊢
    rw [List.filter_cons]
    by_cases own : entry.1 = client
    · simp only [own, decide_true, if_true, find]
    · simpa only [own, decide_false, Bool.false_eq_true, if_false, find] using ih

/-- A task changes the entries of its own client, and those of no other. All
that is said about the independence of clients goes back to this. -/
theorem entriesOf_record (totals : Totals) (client other : String) (time : Duration) :
    entriesOf client (totals.record other time) =
      if other = client then (entriesOf client totals).record other time
      else entriesOf client totals := by
  induction totals with
  | nil => by_cases own : other = client <;> simp [record, entriesOf, own]
  | cons entry rest ih =>
    obtain ⟨name, total⟩ := entry
    by_cases here : name = other
    · subst here
      by_cases own : name = client <;> simp [record, entriesOf, own]
    · by_cases own : other = client <;> by_cases there : name = client <;>
        simp_all [record, entriesOf]

/-- The entries of a client are those of its tasks recorded alone, by induction
on the tasks. -/
theorem entriesOf_recordEach (totals : Totals) (client : String)
    (tasks : List (String × Duration)) :
    entriesOf client (totals.recordEach tasks) =
      (entriesOf client totals).recordEach (tasksOf client tasks) := by
  induction tasks generalizing totals with
  | nil => rfl
  | cons task rest ih =>
    refine (ih _).trans ?_
    rw [entriesOf_record, tasksOf, tasksOf, List.filter_cons]
    by_cases own : task.1 = client
    · simp only [own, if_true, decide_true, recordEach, List.foldl_cons]
    · simp only [own, if_false, decide_false, Bool.false_eq_true]

/-- What the tasks of a client return is what they return alone. -/
theorem returnsOf_reports (totals : Totals) (client : String) (tasks : List (String × Duration)) :
    returnsOf client tasks (totals.reports tasks) =
      (entriesOf client totals).reports (tasksOf client tasks) := by
  induction tasks generalizing totals with
  | nil => rfl
  | cons task rest ih =>
    obtain ⟨name, time⟩ := task
    -- The first task is one of this client, and counts for both sides, or it leaves its entries
    -- alone.
    have later := ih (totals.record name time)
    rw [entriesOf_record] at later
    simp only [returnsOf, tasksOf, reports, List.zip_cons_cons, List.filter_cons] at later ⊢
    by_cases own : name = client
    · subst own
      have same := find_entriesOf (totals.record name time) name
      rw [entriesOf_record, if_pos rfl] at same
      simp only [if_true, decide_true, List.map_cons, reports] at later ⊢
      rw [later, same]
    · simpa only [own, if_false, decide_false, Bool.false_eq_true] using later

theorem recordEach_entry (client : String) (total : Total) {tasks : List (String × Duration)}
    (own : ∀ task ∈ tasks, task.1 = client) :
    recordEach [(client, total)] tasks =
      [(client, (tasks.map (·.2)).foldl Total.record total)] := by
  induction tasks generalizing total with
  | nil => rfl
  | cons task rest ih =>
    obtain ⟨first, others⟩ := List.forall_mem_cons.mp own
    have grown : record [(client, total)] task.1 task.2 = [(client, total.record task.2)] :=
      if_pos first.symm
    rw [recordEach, List.foldl_cons, grown]
    exact ih _ others

/-- A client without tasks has no entry, and any other has one, with the total
of its times. -/
theorem entriesOf_recordEach_nil (client : String) (tasks : List (String × Duration)) :
    entriesOf client (recordEach [] tasks) =
      if timesOf client tasks = [] then [] else [(client,
        Total.ofTimes (timesOf client tasks))] := by
  rw [entriesOf_recordEach, timesOf]
  have own : ∀ task ∈ tasksOf client tasks, task.1 = client :=
    fun task member => by simpa using (List.mem_filter.mp member).2
  generalize tasksOf client tasks = alone at own ⊢
  cases alone with
  | nil => rfl
  | cons task rest =>
    obtain ⟨rfl, others⟩ := List.forall_mem_cons.mp own
    refine (recordEach_entry task.1 (Total.zero.record task.2) others).trans ?_
    rw [← List.foldl_cons, ← List.map_cons, foldl_record, Total.zero, Nat.zero_add]
    rfl

theorem find_recordEach (tasks : List (String × Duration)) (client : String) :
    (recordEach [] tasks).find client = Total.ofTimes (timesOf client tasks) := by
  rw [← find_entriesOf, entriesOf_recordEach_nil]
  split
  · rename_i none
    rw [none]
    rfl
  · exact if_pos rfl

/-- Totals are known up to order by the entries of all clients. The order itself
is that in which the clients first had a task. -/
theorem perm_of_entriesOf {first second : Totals}
    (same : ∀ client, entriesOf client first = entriesOf client second) : first.Perm second := by
  refine List.perm_iff_count.mpr fun entry => ?_
  have kept (totals : Totals) : (entriesOf entry.1 totals).count entry = totals.count entry :=
    List.count_filter (by simp)
  rw [← kept first, ← kept second, same entry.1]

/-- Clients do not share totals. Record tasks whose times are all whole numbers,
or all measured, of any number of clients in any order. None is refused. In the
end a client has one entry, with the number of its tasks and the sum of their
times, or none if it has no tasks; each task has returned the total of its
client up to this task, and further tasks would not change that.

Each client has the same entry, and its tasks have returned the same, as if it
had been alone. So an interleaving in which every client keeps the order of its
tasks leads to the same totals, and returns the same to each client. If the
times are whole numbers, any order of the tasks leads to the same totals.

Proof: uniform times are never refused (`recordAll?_of_uniform`), so the
recording is a fold over the tasks. A task changes the entries of its own client
only, and therefore the entries of a client, and what its tasks return, are
those of its tasks alone (`entriesOf_recordEach`, `returnsOf_reports`). Two
interleavings give every client the same tasks, hence the same entries, and
totals are known by these up to order (`perm_of_entriesOf`). -/
theorem recordAll_isolates_clients (uniform : Uniform tasks) :
    ∃ returned final, recordAll? [] tasks = .ok (returned, final) ∧
      (∀ client, entriesOf client final =
        if timesOf client tasks = [] then []
        else [(client, Total.ofTimes (timesOf client tasks))]) ∧
      returned.length = tasks.length ∧
      (∀ (index : Nat) client time, tasks[index]? = some (client, time) →
        returned[index]? = some (Total.ofTimes (timesOf client (tasks.take (index + 1))))) ∧
      (∀ more, Uniform (tasks ++ more) →
        ∃ later updated, recordAll? [] (tasks ++ more) = .ok (returned ++ later, updated)) ∧
      (∀ client, recordAll? [] (tasksOf client tasks) =
        .ok (returnsOf client tasks returned, entriesOf client final)) ∧
      (∀ others, (∀ client, tasksOf client others = tasksOf client tasks) →
        ∃ again outcome, recordAll? [] others = .ok (again, outcome) ∧ outcome.Perm final ∧
          ∀ client, returnsOf client others again = returnsOf client tasks returned) ∧
      ((∀ task ∈ tasks, task.2.isWhole = true) → ∀ others, others.Perm tasks →
        ∃ again outcome, recordAll? [] others = .ok (again, outcome) ∧ outcome.Perm final) := by
  obtain ⟨whole, kind⟩ := uniform
  refine ⟨reports [] tasks, recordEach [] tasks, recordAll?_of_uniform ⟨whole, kind⟩,
    fun client => entriesOf_recordEach_nil client tasks, length_reports [] tasks, ?_, ?_, ?_, ?_,
    ?_⟩
  · intro index client time found
    rw [getElem?_reports, found, Option.map_some, find_recordEach]
  · intro more longer
    exact ⟨_, _, (recordAll?_of_uniform longer).trans (by rw [reports_append])⟩
  · intro client
    have own : Uniform (tasksOf client tasks) :=
      ⟨whole, fun task member => kind task (List.mem_filter.mp member).1⟩
    rw [recordAll?_of_uniform own, returnsOf_reports, entriesOf_recordEach]
    rfl
  · intro others same
    have alike : Uniform others :=
      ⟨whole, fun task member => kind task (mem_of_tasksOf same member)⟩
    refine ⟨_, _, recordAll?_of_uniform alike, perm_of_entriesOf fun client => ?_, fun client => ?_⟩
    · rw [entriesOf_recordEach, entriesOf_recordEach, same]
    · rw [returnsOf_reports, returnsOf_reports, same]
  · intro allWhole others reordered
    have alike : Uniform others :=
      ⟨true, fun task member => allWhole task (reordered.mem_iff.mp member)⟩
    refine ⟨_, _, recordAll?_of_uniform alike, perm_of_entriesOf fun client => ?_⟩
    have times : (timesOf client others).Perm (timesOf client tasks) := (reordered.filter _).map _
    have ownWhole : ∀ time ∈ timesOf client tasks, time.isWhole = true := by
      intro time member
      obtain ⟨task, own, rfl⟩ := List.mem_map.mp member
      exact allWhole task (List.mem_filter.mp own).1
    have empty : timesOf client others = [] ↔ timesOf client tasks = [] := by
      rw [← List.length_eq_zero_iff, times.length_eq, List.length_eq_zero_iff]
    simp only [entriesOf_recordEach_nil, empty, ofTimes_perm times ownWhole]

/-- Three tasks of two clients. -/
def sharedTasks : List (String × Duration) :=
  [("1", .whole 5), ("2", .whole 7), ("1", .whole (2 ^ 70))]

/-- The first client has two of the three tasks, whatever the other one does. -/
theorem sharedTasks_are_isolated :
    Uniform sharedTasks ∧
      ∃ returned final, recordAll? [] sharedTasks = .ok (returned, final) ∧
        entriesOf "1" final = [("1", { tasks := 2, time := .whole (2 ^ 70 + 5) })] := by
  have uniform : Uniform sharedTasks := ⟨true, by decide⟩
  obtain ⟨returned, final, recorded, entries, _⟩ := recordAll_isolates_clients uniform
  exact ⟨uniform, returned, final, recorded, (entries "1").trans (by decide +kernel)⟩

end Totals

end Reckon.Service
