import Reckon.Proofs.Service.Custody
import Reckon.Proofs.Service.Recording

/-!
# The server comes to rest and its threads survive

Whatever arrives, a run comes to rest after as many actions as the load of the
server says, and until then no thread is lost. A worker would fail if it were
woken for a job and found its slot empty; this does not happen, since flag and
slot agree. The other threads, and the processing of a task, fail nowhere else:
a fault of a connection or of an expression is dealt with where it occurs. What
has to be shown of the processing is that the time can be recorded, and it can,
because the total of a client is always in the range of the doubles.

So a thread ends for its own good reason only, and a thread that has met a fault
goes on: the acceptor to the next arrival, whatever the last connection brought,
and a worker to its next job, whatever the last expression was.
-/

namespace Reckon.Service

/-- Every thread that has ended had done its work. -/
structure Server.EndsRegularly (server : Server) : Prop where
  /-- No thread has ended by a failure. -/
  unfailing : server.failed = []
  /-- The acceptor ends when the server does not listen any more. -/
  acceptor : server.acceptor = .ended → server.listening = false
  /-- The dispatcher ends when all workers have been dismissed. -/
  dispatcher : server.dispatcher.phase = .ended →
    server.dispatcher.duty = .dismiss server.workers.length
  /-- A worker ends when it has been told to stop. -/
  workers : ∀ worker ∈ server.workers, worker.phase = .ended → worker.job = some .stop
  /-- The closer ends when it has given the order to stop. -/
  closer : server.closer = .ended → server.ordersGiven = 1

/-! ## What a move leaves alone -/

/-- No move makes a thread fail. That every action is made of moves is therefore
already a statement about survival. -/
theorem Move.failed_after {server next : Server} (move : Move server next) :
    next.failed = server.failed := by
  cases move <;> rfl

/-- A move keeps the totals in range, since the times that workers record are
measured. -/
theorem Move.inRange_after {server next : Server} (move : Move server next)
    (inRange : server.totals.InRange) : next.totals.InRange := by
  cases move with
  | work running found given notified => exact inRange.inRange_record _ _
  | _ => exact inRange

namespace Scenario

variable {scenario : Scenario}

theorem Passes.failed_eq_nil {server : Server} (passes : scenario.Passes server) :
    server.failed = [] := by
  refine @Passes.holds_of_moves _ (fun server => server.failed = []) _ passes rfl
    (fun _ unfailing => unfailing) ?_
  intro server next _ move unfailing
  exact move.failed_after.trans unfailing

theorem Passes.totals_inRange {server : Server} (passes : scenario.Passes server) :
    server.totals.InRange := by
  refine @Passes.holds_of_moves _ (fun server => server.totals.InRange) _ passes Totals.inRange_nil
    (fun _ inRange => inRange) ?_
  intro server next _ move inRange
  exact move.inRange_after inRange

end Scenario

theorem Sound.ends_regularly {server : Server} (sound : Sound server)
    (unfailing : server.failed = []) : server.EndsRegularly where
  unfailing := unfailing
  acceptor := sound.retired
  dispatcher ended := by
    obtain ⟨next, duty, all⟩ := sound.concluded ended
    rw [duty, Nat.le_antisymm (sound.dismissed next duty).2.2.1 all]
  workers worker member ended := by
    have employed := sound.employed worker member
    unfold Worker.Employed at employed
    split at employed
    · simp [ended] at employed
    · simp [ended] at employed
    · assumption
  closer ended := sound.ordersGiven_eq.trans (if_pos ended)

/-! ## A thread that has met a fault goes on -/

namespace Sound

variable {server : Server} {later : List Thread}

/-- The acceptor goes on to the next arrival, whatever a call has brought and
whether or not the connection can carry a reply. -/
theorem keeps_accepting (sound : Sound server) (running : server.ready = .acceptor :: later)
    (listening : server.listening = true) {wait : Int} {incoming : Except String (List UInt8)}
    {sendFault : Option String} {arrivals : List Arrival}
    (next : server.arrivals = .call wait incoming sendFault :: arrivals) :
    (∃ woken, server.step.ready = .acceptor :: (later ++ woken)) ∧ server.step.acceptor = .ready ∧
      server.step.listening = true ∧ server.step.arrivals = arrivals ∧
      server.step.connections.length = server.connections.length + 1 := by
  have ready := sound.acceptor_ready running
  have acts : server.step = server.accept := by rw [Server.step, running]
  have front (woken : List Thread) : server.ready ++ woken = .acceptor :: (later ++ woken) := by
    rw [running, List.cons_append]
  have stays : server.ready = .acceptor :: (later ++ []) := by rw [running, List.append_nil]
  rw [acts]
  cases heard : Wire.receive incoming with
  | error fault =>
    rw [Server.accept_of_fault listening next heard]
    exact ⟨⟨[], stays⟩, ready, listening, rfl, by simp [Server.close, Server.note, Server.takeCall]⟩
  | ok text =>
    cases room : server.hasRoom with
    | true =>
      rw [Server.accept_of_room listening next heard room, Server.wakeForJob]
      split
      · exact ⟨⟨[.dispatcher], front _⟩, ready, listening, rfl, List.length_append⟩
      · exact ⟨⟨[], stays⟩, ready, listening, rfl, List.length_append⟩
    | false =>
      rw [Server.accept_of_full listening next heard room]
      exact ⟨⟨[], stays⟩, ready, listening, rfl, by
        simp [Server.respond, Server.close, Server.noteAll, Server.takeCall]⟩

/-- A worker goes on to its next job, whatever the expression of its task is and
whether or not the connection can carry the reply. -/
theorem keeps_working (sound : Sound server) {index : Nat} {task : Task}
    (running : server.ready = .worker index :: later)
    (full : server.slot index = some (.task task)) :
    (∃ woken, server.step.ready = .worker index :: (later ++ woken)) ∧
      server.step.workers[index]? = some { phase := .ready } ∧
      server.step.totals = server.totals.record task.request.client
        (.measured server.timing.milliseconds) := by
  obtain ⟨worker, found, _⟩ := Option.bind_eq_some_iff.mp full
  have ready : worker.phase = .ready := by
    obtain ⟨same, present, runs⟩ := (sound.schedule.runnable _).mp (running ▸ List.mem_cons_self)
    cases found.symm.trans present
    exact runs
  have freed : ((server.perform task).modifyWorker index Worker.free).workers[index]? =
      some { phase := .ready } := by
    have same : (server.perform task).workers = server.workers := rfl
    simp [Server.modifyWorker, same, found, Worker.free, ready]
  rw [Server.step_of_slot sound running full, Server.workers_wakeForWorker]
  refine ⟨?_, freed, ?_⟩
  · unfold Server.wakeForWorker
    split
    · exact ⟨[.dispatcher], congrArg (· ++ [Thread.dispatcher]) running⟩
    · exact ⟨[], by rw [List.append_nil]; exact running⟩
  · unfold Server.wakeForWorker
    split <;> rfl

end Sound

namespace Scenario

/-- A run comes to rest within as many actions as the load of the server says,
and its threads survive. Whenever threads switch, those that have ended had done
their work. If the acceptor is running and a call has arrived, the acceptor
stays running and turns to the next arrival. If a worker is running and has a
task, the time is recorded for its client and the worker is ready for another
job.

Proof: every action that changes the server lowers its load, which is shown
where the load is defined. Failures are no moves, so an action of a sound server
causes none (`Passes.failed_eq_nil`); and the recording of a time, which could
fail, succeeds because the totals stay in range (`Passes.totals_inRange`). What
a fault leaves behind is then a single action of the acceptor or of a worker
(`keeps_accepting`, `keeps_working`). -/
theorem run_survives (scenario : Scenario) :
    scenario.run.isAtRest = true ∧
    (∀ count, scenario.stopping.load ≤ count →
      Server.steps count scenario.stopping = scenario.run) ∧
    (scenario.stop = .drained → ∀ count, (Server.start scenario).load ≤ count →
      (Server.steps count (Server.start scenario)).isAtRest = true ∧
        (Server.steps count (Server.start scenario)).requestStop = scenario.stopping) ∧
    ∀ server, scenario.Passes server →
      server.EndsRegularly ∧
      (∀ later wait incoming sendFault arrivals, server.ready = .acceptor :: later →
        server.listening = true → server.arrivals = .call wait incoming sendFault :: arrivals →
          (∃ woken, server.step.ready = .acceptor :: (later ++ woken)) ∧
            server.step.acceptor = .ready ∧ server.step.listening = true ∧
            server.step.arrivals = arrivals ∧
            server.step.connections.length = server.connections.length + 1) ∧
      ∀ later index task, server.ready = .worker index :: later →
        server.slot index = some (.task task) →
          (∃ woken, server.step.ready = .worker index :: (later ++ woken)) ∧
            server.step.workers[index]? = some { phase := .ready } ∧
            server.totals.record? task.request.client (.measured server.timing.milliseconds) =
              .ok server.step.totals := by
  have settles (server : Server) (count : Nat) (enough : server.load ≤ count) :
      Server.steps count server = server.settle := by
    rw [← Nat.add_sub_cancel' enough, steps_add]
    exact Server.steps_of_isAtRest _ _ (Server.isAtRest_settle server)
  refine ⟨?_, ?_, ?_, ?_⟩
  · rw [run_eq]
    exact Server.isAtRest_settle _
  · intro count enough
    rw [run_eq, settles _ _ enough]
  · intro drained count enough
    rw [settles _ _ enough, stopping_of_drained drained]
    exact ⟨Server.isAtRest_settle _, rfl⟩
  · intro server passes
    have sound := passes.inOrder_of_passes.sound
    refine ⟨sound.ends_regularly passes.failed_eq_nil, ?_, ?_⟩
    · intro later wait incoming sendFault arrivals running listening next
      exact sound.keeps_accepting running listening next
    · intro later index task running full
      obtain ⟨stays, free, totals⟩ := sound.keeps_working running full
      exact ⟨stays, free, totals ▸ passes.totals_inRange.record?_of_inRange _ _⟩

/-- One worker and four calls, each with something amiss: a connection that
fails, bytes that encode no text, an expression without a value, and a
connection that cannot carry the reply. -/
def mishaps : Scenario :=
  { workers := 1
    capacity := 0
    timeout := 5
    timer := []
    stop := .never
    shutdownFails := false
    arrivals := [.call 0 (.error "timed out") none, .call 0 (.ok [0xff]) none,
      .call 0 (.ok "1:2+".toUTF8.toList) none,
      .call 0 (.ok "1:1/0".toUTF8.toList) (some "broken pipe")] }

/-- After four mishaps, all threads wait for more, and none has failed. -/
theorem mishaps_are_survived :
    mishaps.run.isAtRest = true ∧ mishaps.run.failed = [] ∧ mishaps.run.connections.length = 4 ∧
      mishaps.run.acceptor = .waiting ∧
      mishaps.run.workers = [{ phase := .waiting, job := none, busy := false }] := by
  obtain ⟨rests, _, _, regular⟩ := run_survives mishaps
  exact ⟨rests, (regular _ mishaps.passes_run).1.unfailing, by decide +kernel, by decide +kernel,
    by decide +kernel⟩

end Scenario

end Reckon.Service
