import Reckon.Proofs.Service.Action
import Reckon.Proofs.Service.Books

/-!
# The course of a run

A run starts with a new server and goes from one action to the next; in between,
the server may be told to stop. All servers that it passes through are sound and
have balanced books.

The run pauses or ends where no thread can run. Because no wake-up is lost, a
server with workers comes to such a standstill in two ways only. It may be
*vacant*: the dispatcher waits for a job, the queue is empty, and no worker has
a job. Or it has *closed down*: the dispatcher has told every worker to stop,
and all of them have ended. A server that has not been told to stop is vacant
when it comes to rest, with every arrival accepted; one that has been told to
stop has closed down.
-/

namespace Reckon.Service

open Relation

/-! ## Standstill -/

/-- There is nothing to do but to wait for a connection: the dispatcher waits
for a job, the queue is empty, and no worker has one. -/
structure Server.Vacant (server : Server) : Prop where
  dispatcher : server.dispatcher = { phase := .waiting, duty := .take }
  queue : server.queue = []
  workers : ∀ worker ∈ server.workers, worker.job = none

/-- The order to stop has come through to every thread behind the queue. -/
structure Server.ClosedDown (server : Server) : Prop where
  dispatcher : server.dispatcher = { phase := .ended, duty := .dismiss server.workers.length }
  closer : server.closer = .ended
  queue : server.queue = []
  workers : ∀ worker ∈ server.workers, worker = { phase := .ended, job := some .stop }

namespace Sound

variable {server next : Server}

theorem ready_of_isAtRest (rest : server.isAtRest = true) :
    server.ready = [] ∧ server.acceptor ≠ .aside := by
  simpa [Server.isAtRest] using rest

theorem acceptor_asleep (sound : Sound server) (quiet : server.ready = []) :
    server.acceptor ≠ .ready := by
  intro awake
  have member := (sound.schedule.runnable .acceptor).mpr awake
  rw [quiet] at member
  cases member

/-- When no thread can run, a worker waits without a job or has ended after its
order to stop. A worker with a task could run. -/
theorem worker_standstill (sound : Sound server) (quiet : server.ready = []) (worker : Worker)
    (member : worker ∈ server.workers) :
    worker.job = none ∨ worker = { phase := .ended, job := some .stop } := by
  obtain ⟨index, found⟩ := List.mem_iff_getElem?.mp member
  have asleep : worker.phase ≠ .ready := by
    intro awake
    have present := (sound.schedule.runnable (.worker index)).mpr ⟨worker, found, awake⟩
    rw [quiet] at present
    cases present
  have employed := sound.employed worker member
  unfold Worker.Employed at employed
  split at employed
  · rename_i idle
    exact .inl idle
  · exact absurd employed asleep
  · rename_i told
    have ended := employed.resolve_left asleep
    have flagged := sound.flagged worker member
    obtain ⟨phase, job, busy⟩ := worker
    obtain rfl : phase = .ended := ended
    obtain rfl : job = some .stop := told
    obtain rfl : busy = true := flagged
    exact .inr rfl

/-- When no thread can run, a server with workers is vacant or has closed down.
The dispatcher cannot wait for a worker, because soundness says that this worker
has a job, and with a job it could run or has ended. -/
theorem vacant_or_closedDown (sound : Sound server) (quiet : server.ready = [])
    (staffed : server.workers ≠ []) :
    server.Vacant ∨ server.ClosedDown := by
  have still := sound.worker_standstill quiet
  have asleep : server.dispatcher.phase ≠ .ready := by
    intro awake
    have present := (sound.schedule.runnable .dispatcher).mpr awake
    rw [quiet] at present
    cases present
  cases phase : server.dispatcher.phase with
  | ready => exact absurd phase asleep
  | aside => exact absurd phase sound.present
  | waiting =>
    cases duty : server.dispatcher.duty with
    | take =>
      obtain ⟨none, _⟩ := sound.queued (by simp [duty])
      refine .inl ⟨by rw [← phase, ← duty], sound.starved phase duty, fun worker member => ?_⟩
      refine (still worker member).resolve_right fun ended => none ?_
      exact List.mem_map.mpr ⟨worker, member, by rw [ended]⟩
    | place task =>
      obtain ⟨none, _⟩ := sound.queued (by simp [duty])
      obtain ⟨worker, member⟩ := List.exists_mem_of_ne_nil _ staffed
      rcases still worker member with idle | ended
      · exact absurd (List.mem_map.mpr ⟨worker, member, idle⟩) (sound.stalled phase task duty)
      · exact absurd (List.mem_map.mpr ⟨worker, member, by rw [ended]⟩) none
    | dismiss next =>
      obtain ⟨job, busy⟩ := sound.lingering phase next duty
      obtain ⟨_, _, _, given⟩ := sound.dismissed next duty
      obtain ⟨worker, found, holds⟩ : ∃ worker, server.workers[next]? = some worker ∧
          worker.job = some job := by simpa [Server.jobs] using busy
      have bound := (List.getElem?_eq_some_iff.mp found).1
      rcases still worker (List.mem_of_getElem? found) with idle | ended
      · cases idle.symm.trans holds
      · have told : server.jobs[next]? = some (some .stop) := by simp [Server.jobs, found, ended]
        exact absurd ((given next bound).mp told) (Nat.lt_irrefl next)
  | ended =>
    obtain ⟨next, duty, all⟩ := sound.concluded phase
    obtain ⟨closer, empty, inside, given⟩ := sound.dismissed next duty
    obtain rfl := Nat.le_antisymm inside all
    refine .inr ⟨by rw [← phase, ← duty], closer, empty, fun worker member => ?_⟩
    obtain ⟨index, found⟩ := List.mem_iff_getElem?.mp member
    have bound := (List.getElem?_eq_some_iff.mp found).1
    refine (still worker member).resolve_left fun idle => ?_
    have told := (given index bound).mpr bound
    simp [Server.jobs, found, idle] at told

theorem vacant_of_quiet (sound : Sound server) (quiet : server.ready = [])
    (staffed : server.workers ≠ []) (absent : server.closer = .absent) : server.Vacant := by
  rcases sound.vacant_or_closedDown quiet staffed with vacant | closed
  · exact vacant
  · cases absent.symm.trans closed.closer

/-- A server at rest that has not been told to stop has accepted whatever
arrived, since it listens, and an acceptor that waits has nothing to accept. -/
theorem arrivals_of_isAtRest (sound : Sound server) (rest : server.isAtRest = true)
    (absent : server.closer = .absent) : server.arrivals = [] := by
  obtain ⟨quiet, present⟩ := ready_of_isAtRest rest
  have listening := sound.listens.mpr (.inl absent)
  cases phase : server.acceptor with
  | waiting => exact (sound.awaits phase).2
  | aside => exact absurd phase present
  | ready => exact absurd phase (sound.acceptor_asleep quiet)
  | ended => exact absurd ((sound.retired phase).symm.trans listening) Bool.false_ne_true

/-- A server at rest that has been told to stop has closed down, and its
acceptor has ended too. -/
theorem closedDown_of_isAtRest (sound : Sound server) (rest : server.isAtRest = true)
    (staffed : server.workers ≠ []) (told : server.closer ≠ .absent) :
    server.ClosedDown ∧ server.acceptor = .ended := by
  obtain ⟨quiet, present⟩ := ready_of_isAtRest rest
  have asleep : ¬(server.closer = .closing ∨ server.closer = .ordering) := by
    intro awake
    have member := (sound.schedule.runnable .closer).mpr awake
    rw [quiet] at member
    cases member
  have closed : server.ClosedDown := by
    rcases sound.vacant_or_closedDown quiet staffed with vacant | closed
    · exfalso
      have empty := vacant.queue
      -- The order to stop has not been taken, so it is still on its way or in the queue.
      obtain ⟨_, tasks, queue⟩ := sound.queued (by simp [vacant.dispatcher])
      cases closer : server.closer with
      | absent => exact told closer
      | closing => exact asleep (.inl closer)
      | ordering => exact asleep (.inr closer)
      | waiting =>
        have full := sound.held closer
        simp only [Server.hasRoom, empty, List.length_nil, Bool.or_eq_false_iff,
          beq_eq_false_iff_ne, decide_eq_false_iff_not] at full
        omega
      | ended => simp [closer, empty] at queue
    · exact closed
  refine ⟨closed, ?_⟩
  have silent : server.listening ≠ true := by
    intro listening
    have early := sound.listens.mp listening
    simp [closed.closer] at early
  cases phase : server.acceptor with
  | ended => rfl
  | aside => exact absurd phase present
  | ready => exact absurd phase (sound.acceptor_asleep quiet)
  | waiting => exact absurd (sound.awaits phase).1 silent

end Sound

/-! ## What moves never change -/

section Constant

variable {server next : Server}

theorem Move.workers_length (move : Move server next) :
    next.workers.length = server.workers.length := by
  cases move with
  | place running holds found idle asleep => exact List.length_set
  | dismiss running dismisses found idle asleep => exact List.length_set
  | idle running found free => exact List.length_set
  | quit running found told => exact List.length_set
  | work running found given notified => exact List.length_set
  | _ => rfl

theorem Move.closer_absent_iff (move : Move server next) :
    next.closer = .absent ↔ server.closer = .absent := by
  cases move <;>
    simp_all [Server.note, Server.noteAll, Server.wakeDispatcher, Server.perform, Server.close]

/-- Nobody gets through to the server any more: nothing arrives, or it does not
listen. -/
def Server.Unreachable (server : Server) : Prop :=
  server.arrivals = [] ∨ server.listening = false

theorem Server.Unreachable.not_accepts (unreachable : server.Unreachable) {arrival : Arrival}
    {later : List Arrival} (listening : server.listening = true)
    (next : server.arrivals = arrival :: later) : False := by
  rcases unreachable with exhausted | silent
  · cases exhausted.symm.trans next
  · cases silent.symm.trans listening

/-- An unreachable server stays so, and accepts no connection. -/
theorem Move.unreachable_after (move : Move server next) (unreachable : server.Unreachable) :
    next.Unreachable ∧ next.arrivals = server.arrivals ∧
      next.connections.length = server.connections.length := by
  cases move with
  | pause running listening next => exact (unreachable.not_accepts listening next).elim
  | drop running listening next faulty => exact (unreachable.not_accepts listening next).elim
  | reject running listening next heard full => exact (unreachable.not_accepts listening next).elim
  | enter running listening next heard room notified =>
    exact (unreachable.not_accepts listening next).elim
  | silence running begins elsewhere => exact ⟨.inr rfl, rfl, rfl⟩
  | interrupt running begins waiting => exact ⟨.inr rfl, rfl, rfl⟩
  | work running found given notified => exact ⟨unreachable, rfl, List.length_modify ..⟩
  | _ => exact ⟨unreachable, rfl, rfl⟩

end Constant

/-! ## The servers of a run -/

theorem Server.books_start (scenario : Scenario) :
    (Server.start scenario).books =
      { connections := [], totals := [], timer := scenario.timer, inHand := [], waiting := []
        entered := [], assigned := [], processed := [] } := by
  have threads : (Server.start scenario).inHand = [] := by
    apply List.filterMap_eq_nil_iff.mpr
    intro thread member
    cases thread with
    | worker index => simp [taskOf, Server.start, note, List.getElem?_replicate]
    | acceptor => rfl
    | dispatcher => rfl
    | closer => rfl
  rw [books, threads]
  rfl

theorem Server.books_requestStop (server : Server) : server.requestStop.books = server.books := by
  have same : server.requestStop.inHand = server.inHand := Sound.inHand_wake _ _ rfl
  rw [books, same]
  rfl

/-- The server is sound, its books are balanced, and it has so many workers.
This is what most proofs about runs assume of a server. -/
structure Server.InOrder (count : Nat) (server : Server) : Prop where
  sound : Sound server
  balanced : server.books.Balanced
  staff : server.workers.length = count

namespace Server.InOrder

variable {count : Nat} {server next : Server}

theorem inOrder_after_move (orderly : server.InOrder count) (move : Move server next) :
    next.InOrder count :=
  { sound := orderly.sound.sound_after_move move
    balanced := (orderly.sound.effect_of_move move).balanced_after orderly.balanced
    staff := move.workers_length.trans orderly.staff }

theorem inOrder_after_moves (orderly : server.InOrder count)
    (moves : ReflTransGen Move server next) :
    next.InOrder count := by
  induction moves with
  | refl => exact orderly
  | tail _ last ih => exact ih.inOrder_after_move last

/-- Any number of actions keeps a server in order, because actions are made of
moves. -/
theorem inOrder_steps (orderly : server.InOrder count) (actions : Nat) :
    (steps actions server).InOrder count :=
  orderly.inOrder_after_moves (orderly.sound.moves_steps actions)

/-- What every move keeps is kept by any number of actions. The proof for a move
may use that the server is in order. -/
theorem kept_by_steps (orderly : server.InOrder count) {property : Server → Prop}
    (moves : ∀ server next, server.InOrder count → Move server next → property server →
      property next) (before : property server) (actions : Nat) :
    property (Server.steps actions server) := by
  have course := orderly.sound.moves_steps actions
  generalize Server.steps actions server = last at course
  induction course with
  | refl => exact before
  | tail earlier move ih => exact moves _ _ (orderly.inOrder_after_moves earlier) move ih

theorem inOrder_requestStop (orderly : server.InOrder count) (absent : server.closer = .absent) :
    server.requestStop.InOrder count :=
  { sound := orderly.sound.sound_requestStop absent
    balanced := server.books_requestStop ▸ orderly.balanced
    staff := orderly.staff }

theorem workers_ne_nil (orderly : server.InOrder count) (positive : 0 < count) :
    server.workers ≠ [] := by
  rintro none
  have length := orderly.staff
  rw [none, List.length_nil] at length
  omega

theorem inOrder_start (scenario : Scenario) : (Server.start scenario).InOrder scenario.workers :=
  { sound := .sound_start scenario
    balanced := by
      rw [books_start]
      exact ⟨nofun, nofun, rfl, rfl⟩
    staff := List.length_replicate }

end Server.InOrder

theorem closer_steps (count : Nat) {server : Server} (sound : Sound server) :
    (Server.steps count server).closer = .absent ↔ server.closer = .absent := by
  have moves := sound.moves_steps count
  generalize Server.steps count server = next at moves
  induction moves with
  | refl => exact Iff.rfl
  | tail _ last ih => exact last.closer_absent_iff.trans ih

theorem steps_add (first second : Nat) (server : Server) :
    Server.steps (first + second) server = Server.steps second (Server.steps first server) := by
  induction first generalizing server with
  | zero => rw [Nat.zero_add, Server.steps]
  | succ first ih => rw [Nat.succ_add, Server.steps, ih, Server.steps]

/-- Where a server comes to rest does not depend on where it is on its way. At
rest, further actions change nothing. -/
theorem settle_steps (count : Nat) (server : Server) :
    (Server.steps count server).settle = server.settle := by
  have rests := Server.isAtRest_settle (Server.steps count server)
  unfold Server.settle at rests ⊢
  rw [← steps_add] at rests ⊢
  rcases Nat.le_total server.load (count + (Server.steps count server).load) with enough | early
  · rw [← Nat.add_sub_cancel' enough, steps_add]
    exact Server.steps_of_isAtRest _ _ (Server.isAtRest_settle server)
  · conv_rhs => rw [← Nat.add_sub_cancel' early, steps_add]
    exact (Server.steps_of_isAtRest _ _ rests).symm

namespace Scenario

variable {scenario : Scenario}

/-- The server when it is told to stop, or when it starts if it is never told.
The run goes on from here without further orders. -/
def stopping (scenario : Scenario) : Server :=
  match scenario.stop with
  | .drained => (Server.start scenario).settle.requestStop
  | .immediate => (Server.start scenario).requestStop
  | .never => Server.start scenario

/-- The run passes through this server: after the order to stop, or on the way
to it if the server is to be drained. -/
def Passes (scenario : Scenario) (server : Server) : Prop :=
  (∃ count, server = Server.steps count scenario.stopping) ∨
    scenario.stop = .drained ∧ ∃ count, server = Server.steps count (Server.start scenario)

theorem stopping_of_drained (drained : scenario.stop = .drained) :
    scenario.stopping = (Server.start scenario).settle.requestStop := by
  simp only [stopping, drained]

/-- The closer is absent until the server is told to stop. -/
theorem closer_start (scenario : Scenario) (count : Nat) :
    (Server.steps count (Server.start scenario)).closer = .absent :=
  (closer_steps count (Sound.sound_start scenario)).mpr rfl

theorem run_eq (scenario : Scenario) : scenario.run = scenario.stopping.settle := by
  unfold run stopping
  cases scenario.stop <;> rfl

theorem passes_run (scenario : Scenario) : scenario.Passes scenario.run :=
  .inl ⟨_, scenario.run_eq⟩

theorem inOrder_stopping (scenario : Scenario) : scenario.stopping.InOrder scenario.workers := by
  have started := Server.InOrder.inOrder_start scenario
  unfold stopping
  cases scenario.stop with
  | drained => exact (started.inOrder_steps _).inOrder_requestStop (scenario.closer_start _)
  | immediate => exact started.inOrder_requestStop rfl
  | never => exact started

/-- Every server of a run is in order. -/
theorem Passes.inOrder_of_passes {server : Server} (passes : scenario.Passes server) :
    server.InOrder scenario.workers := by
  rcases passes with ⟨count, rfl⟩ | ⟨_, count, rfl⟩
  · exact scenario.inOrder_stopping.inOrder_steps count
  · exact (Server.InOrder.inOrder_start scenario).inOrder_steps count

/-- A run goes on from every server that it passes through. A server at rest
stays what it is. -/
theorem Passes.passes_step {server : Server} (passes : scenario.Passes server) :
    scenario.Passes server.step := by
  rcases passes with ⟨count, rfl⟩ | ⟨drained, count, rfl⟩
  · exact .inl ⟨count + 1, (steps_add count 1 scenario.stopping).symm⟩
  · exact .inr ⟨drained, count + 1, (steps_add count 1 (Server.start scenario)).symm⟩

/-- What a new server has, what every move keeps, and what the order to stop
does not disturb, holds of every server of a run. This is the induction by which
invariants of runs are proved. -/
theorem Passes.holds_of_moves {property : Server → Prop} {server : Server}
    (passes : scenario.Passes server) (starts : property (Server.start scenario))
    (told : ∀ server, property server → property server.requestStop)
    (moves : ∀ server next, server.InOrder scenario.workers → Move server next → property server →
      property next) : property server := by
  have started := (Server.InOrder.inOrder_start scenario).kept_by_steps moves starts
  have stopping : property scenario.stopping := by
    unfold stopping
    cases scenario.stop with
    | drained => exact told _ (started _)
    | immediate => exact told _ starts
    | never => exact starts
  rcases passes with ⟨count, rfl⟩ | ⟨_, count, rfl⟩
  · exact scenario.inOrder_stopping.kept_by_steps moves stopping count
  · exact started count

/-- What a server of a run has, what every move keeps, and what the order to
stop does not disturb, holds at the end of the run. -/
theorem Passes.holds_at_end {property : Server → Prop} {server : Server}
    (passes : scenario.Passes server) (holds : property server)
    (told : ∀ server, property server → property server.requestStop)
    (moves : ∀ server next, server.InOrder scenario.workers → Move server next → property server →
      property next) : property scenario.run := by
  have settled := passes.inOrder_of_passes.kept_by_steps moves holds server.load
  rw [run_eq]
  rcases passes with ⟨count, rfl⟩ | ⟨drained, count, rfl⟩
  · rw [← settle_steps count]
    exact settled
  · have rested : property (Server.start scenario).settle := settle_steps count _ ▸ settled
    have stopping : property scenario.stopping := stopping_of_drained drained ▸ told _ rested
    exact scenario.inOrder_stopping.kept_by_steps moves stopping _

end Scenario

end Reckon.Service
