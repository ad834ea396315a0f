import Reckon.Proofs.Service.Course

/-!
# Shutdown loses nothing

A server that is told to stop, at once or when it is vacant, comes to rest with
nothing left over. What has been accepted is closed, what entered the queue has
been processed, and every thread has ended.

The order to stop reaches the dispatcher behind all tasks, and no request enters
after it. When the dispatcher takes it, all that is left of the requests is in
the hands of workers, and a worker with a task is not dismissed before it is
done with it. So everything has been processed when the dispatcher ends. A
server that was vacant has nothing in hand even when the order is taken.
-/

namespace Reckon.Service

open Relation

namespace Sound

variable {server next : Server}

/-- A dispatcher that has taken the order to stop leaves no task waiting, for
the order was the last job in the queue. -/
theorem waiting_of_dismiss (sound : Sound server) {position : Nat}
    (duty : server.dispatcher.duty = .dismiss position) : server.waiting = [] := by
  rw [Server.waiting, duty, (sound.dismissed position duty).2.1]
  rfl

/-- When the dispatcher has taken the order to stop, the server is unreachable:
the closer ended the listening before it gave the order. -/
theorem unreachable_of_dismiss (sound : Sound server) {position : Nat}
    (duty : server.dispatcher.duty = .dismiss position) : server.Unreachable := by
  have ended := (sound.dismissed position duty).1
  refine .inr (Bool.eq_false_iff.mpr fun listening => ?_)
  have early := sound.listens.mp listening
  simp [ended] at early

/-- What is in hand when the order to stop has been taken is in the slots of
workers that have not been told to stop. The workers before the dispatcher's
position have the order in their slots, and a slot holds one job. -/
theorem exists_worker_of_inHand (sound : Sound server) {position : Nat}
    (duty : server.dispatcher.duty = .dismiss position) :
    ∀ task ∈ server.inHand,
      ∃ index ≥ position, server.jobs[index]? = some (some (.task task)) := by
  obtain ⟨_, _, _, given⟩ := sound.dismissed position duty
  intro task member
  obtain ⟨thread, _, holds⟩ := List.mem_filterMap.mp member
  cases thread with
  | worker index =>
    obtain ⟨worker, found, held⟩ := Option.bind_eq_some_iff.mp holds
    obtain ⟨job, present, same⟩ := Option.bind_eq_some_iff.mp held
    have slot : server.jobs[index]? = some (some job) := by simp [Server.jobs, found, present]
    cases job with
    | stop => cases same
    | task other =>
      cases same
      refine ⟨index, Nat.le_of_not_lt fun before => ?_, slot⟩
      have bound := (List.getElem?_eq_some_iff.mp found).1
      have told := (given index bound).mpr before
      cases slot.symm.trans told
  | acceptor => cases holds
  | dispatcher => cases holds
  | closer => cases holds

/-- A dispatcher that has ended leaves no task in the hands of a worker. It has
told every worker to stop, and there is no slot left for a task. -/
theorem inHand_of_ended (sound : Sound server) (ended : server.dispatcher.phase = .ended) :
    server.inHand = [] := by
  obtain ⟨position, duty, all⟩ := sound.concluded ended
  obtain ⟨_, _, _, given⟩ := sound.dismissed position duty
  apply List.filterMap_eq_nil_iff.mpr
  intro thread member
  cases thread with
  | worker index =>
    obtain ⟨worker, found, _⟩ := (sound.schedule.runnable _).mp member
    have bound := (List.getElem?_eq_some_iff.mp found).1
    have told := (given index bound).mpr (Nat.lt_of_lt_of_le bound all)
    have stop : worker.job = some .stop := by simpa [Server.jobs, found] using told
    simp [taskOf, found, stop, Job.task?]
  | acceptor => rfl
  | dispatcher => rfl
  | closer => rfl

end Sound

namespace Server

variable {server next : Server} {count : Nat}

/-- From an unreachable server on, no request enters, and nothing is added to
what is to be processed. -/
theorem InOrder.entered_of_unreachable (orderly : server.InOrder count)
    (unreachable : server.Unreachable) (moves : ReflTransGen Move server next) :
    next.requests Event.entered? = server.requests Event.entered? ∧
      (server.books.pending = [] → next.books.pending = []) := by
  suffices kept : next.Unreachable ∧ next.books.entered = server.books.entered ∧
      (server.books.pending = [] → next.books.pending = []) from kept.2
  induction moves with
  | refl => exact ⟨unreachable, rfl, id⟩
  | tail before last ih =>
    obtain ⟨still, entered, pending⟩ := ih
    obtain ⟨after, _, same⟩ := last.unreachable_after still
    obtain ⟨sameEntered, samePending⟩ :=
      ((orderly.inOrder_after_moves before).sound.effect_of_move last).entered_of_length same
    exact ⟨after, sameEntered.trans entered, fun none => samePending (pending none)⟩

/-- Without tasks to be processed, all requests that entered have been
processed, and all connections have been closed. Both are read off the balance
of the books. -/
theorem InOrder.processed_and_closed (orderly : server.InOrder count)
    (none : server.books.pending = []) :
    server.requests Event.processed? = server.requests Event.entered? ∧
      ∀ connection ∈ server.connections, connection.closed = 1 := by
  have balanced := orderly.balanced
  constructor
  · have entered := balanced.inOrder
    rw [none, List.map_nil, List.append_nil] at entered
    exact entered.symm
  · intro connection member
    obtain ⟨index, found⟩ := List.mem_iff_getElem?.mp member
    have once := balanced.closedOnce index connection found
    rwa [none, List.countP_nil, Nat.add_zero] at once

theorem Vacant.pending_of_vacant (vacant : server.Vacant) (quiet : server.ready = []) :
    server.books.pending = [] := by
  simp [Books.pending, books, inHand, waiting, quiet, vacant.dispatcher, vacant.queue, Duty.task?]

theorem ClosedDown.pending_of_closedDown (closed : server.ClosedDown) (quiet : server.ready = []) :
    server.books.pending = [] := by
  simp [Books.pending, books, inHand, waiting, quiet, closed.dispatcher, closed.queue, Duty.task?]

end Server

namespace Scenario

variable {scenario : Scenario}

/-- A server that comes to rest before it is told to stop has nothing to
process, and nothing arrives any more. -/
theorem settle_start (scenario : Scenario) (staffed : 0 < scenario.workers) :
    (Server.start scenario).settle.books.pending = [] ∧
      (Server.start scenario).settle.arrivals = [] := by
  have orderly := (Server.InOrder.inOrder_start scenario).inOrder_steps (Server.start scenario).load
  have absent := scenario.closer_start (Server.start scenario).load
  have rest := Server.isAtRest_settle (Server.start scenario)
  have quiet := (Sound.ready_of_isAtRest rest).1
  have vacant := orderly.sound.vacant_of_quiet quiet (orderly.workers_ne_nil staffed) absent
  exact ⟨vacant.pending_of_vacant quiet, orderly.sound.arrivals_of_isAtRest rest absent⟩

/-- A server that is told to stop when it is vacant has nothing to process from
then on, because nothing can enter. -/
theorem pending_of_drained (staffed : 0 < scenario.workers) (drained : scenario.stop = .drained)
    (count : Nat) : (Server.steps count scenario.stopping).books.pending = [] := by
  obtain ⟨pending, exhausted⟩ := scenario.settle_start staffed
  have orderly := scenario.inOrder_stopping
  have moves := orderly.sound.moves_steps count
  rw [stopping_of_drained drained] at orderly moves ⊢
  exact (orderly.entered_of_unreachable (.inl exhausted) moves).2
    ((congrArg Books.pending (Server.books_requestStop _)).trans pending)

theorem Passes.exists_steps {server : Server} (passes : scenario.Passes server) {position : Nat}
    (duty : server.dispatcher.duty = .dismiss position) :
    ∃ count, server = Server.steps count scenario.stopping := by
  have sound := passes.inOrder_of_passes.sound
  rcases passes with stopped | ⟨_, count, rfl⟩
  · exact stopped
  · cases (scenario.closer_start count).symm.trans (sound.dismissed position duty).1

/-- The run goes on to its end from a server whose dispatcher has taken the
order to stop. -/
theorem Passes.moves_run {server : Server} (passes : scenario.Passes server) {position : Nat}
    (duty : server.dispatcher.duty = .dismiss position) :
    ReflTransGen Move server scenario.run := by
  obtain ⟨count, rfl⟩ := passes.exists_steps duty
  rw [run_eq, ← settle_steps count scenario.stopping]
  exact passes.inOrder_of_passes.sound.moves_steps _

/-- A server that is told to stop loses nothing. At the end of the run every
connection has been closed once, the queue is empty, all threads have ended,
each worker after one order to stop, and the requests that entered the queue
have been processed in their order.

No request enters once the dispatcher has taken the order to stop, and all that
have entered were given to workers before. What they have not processed then is
in their hands, in the slots of workers that the dispatcher has still to tell.
They have processed everything when the dispatcher ends, and already when it
takes the order if the server had been drained.

Proof: the end of the run is a standstill after an order to stop, and because no
wake-up is lost there is only one kind of that: everything has closed down
(`Sound.closedDown_of_isAtRest`). For the moments since the order was taken, the
books of that moment are compared with those at the end. In between the server
is unreachable, so nothing is added to what entered, and what entered is what
has been processed and what is pending. -/
theorem shutdown_loses_nothing (scenario : Scenario) (staffed : 0 < scenario.workers)
    (told : scenario.stop ≠ .never) :
    scenario.run.isAtRest = true ∧
    (∀ connection ∈ scenario.run.connections, connection.closed = 1) ∧
    scenario.run.queue = [] ∧
    scenario.run.acceptor = .ended ∧
    scenario.run.closer = .ended ∧
    scenario.run.dispatcher = { phase := .ended, duty := .dismiss scenario.workers } ∧
    scenario.run.workers = List.replicate scenario.workers { phase := .ended, job := some .stop } ∧
    scenario.run.requests Event.processed? = scenario.run.requests Event.entered? ∧
    ∀ server position, scenario.Passes server → server.dispatcher.duty = .dismiss position →
      server.queue = [] ∧
      server.requests Event.assigned? = scenario.run.requests Event.entered? ∧
      scenario.run.requests Event.entered? =
        server.requests Event.processed? ++ server.inHand.map (·.request) ∧
      (∀ task ∈ server.inHand,
        ∃ index ≥ position, server.jobs[index]? = some (some (.task task))) ∧
      (scenario.stop = .drained ∨ server.dispatcher.phase = .ended →
        server.requests Event.processed? = scenario.run.requests Event.entered?) ∧
      ∀ index < scenario.workers, server.jobs[index]? = some (some .stop) ↔ index < position := by
  have passes := scenario.passes_run
  have orderly := passes.inOrder_of_passes
  have rests : scenario.run.isAtRest = true := by
    rw [run_eq]
    exact Server.isAtRest_settle _
  have started : scenario.run.closer ≠ .absent := by
    intro absent
    rw [run_eq] at absent
    have before := (closer_steps _ scenario.inOrder_stopping.sound).mp absent
    unfold stopping at before
    cases stop : scenario.stop with
    | never => exact told stop
    | drained => simp [stop, Server.requestStop] at before
    | immediate => simp [stop, Server.requestStop] at before
  obtain ⟨closed, acceptor⟩ :=
    orderly.sound.closedDown_of_isAtRest rests (orderly.workers_ne_nil staffed) started
  obtain ⟨processed, connections⟩ :=
    orderly.processed_and_closed (closed.pending_of_closedDown (Sound.ready_of_isAtRest rests).1)
  have dispatcher := closed.dispatcher
  rw [orderly.staff] at dispatcher
  refine ⟨rests, connections, closed.queue, acceptor, closed.closer, dispatcher,
    List.eq_replicate_iff.mpr ⟨orderly.staff, closed.workers⟩, processed, ?_⟩
  intro server position passing duty
  have ordered := passing.inOrder_of_passes
  have sound := ordered.sound
  have waiting := sound.waiting_of_dismiss duty
  obtain ⟨_, queue, _, given⟩ := sound.dismissed position duty
  obtain ⟨entered, _⟩ := ordered.entered_of_unreachable (sound.unreachable_of_dismiss duty)
    (passing.moves_run duty)
  have inOrder := ordered.balanced.inOrder
  have pending : server.books.pending = server.inHand := by
    simp only [Books.pending, Server.books, waiting, List.append_nil]
  rw [pending] at inOrder
  refine ⟨queue, ?_, entered.trans inOrder, sound.exists_worker_of_inHand duty, ?_,
    ordered.staff ▸ given⟩
  · exact ordered.balanced.handed.trans (inOrder.symm.trans entered.symm)
  · intro finished
    have none : server.books.pending = [] := by
      rcases finished with drained | ended
      · obtain ⟨count, rfl⟩ := passing.exists_steps duty
        exact pending_of_drained staffed drained count
      · exact pending.trans (sound.inHand_of_ended ended)
    exact (ordered.processed_and_closed none).1.trans entered.symm

/-- One worker, two calls that both get through, and the order to stop at
once. -/
def backlog : Scenario :=
  { workers := 1
    capacity := 0
    timeout := 5
    timer := []
    stop := .immediate
    shutdownFails := false
    arrivals := [.call 0 (.ok "1+1".toUTF8.toList) none, .call 0 (.ok "2*3".toUTF8.toList) none] }

/-- A backlog of two requests is processed before the threads end. -/
theorem backlog_is_processed :
    0 < backlog.workers ∧ backlog.stop ≠ .never ∧ backlog.run.connections.length = 2 ∧
      backlog.run.queue = [] ∧ ∀ connection ∈ backlog.run.connections, connection.closed = 1 := by
  obtain ⟨_, connections, queue, _⟩ := shutdown_loses_nothing backlog (by decide) (by decide)
  exact ⟨by decide, by decide, by decide +kernel, queue, connections⟩

/-- What entered need not have been processed when the order to stop is taken.
In the run of `backlog` the order stands in the queue when the dispatcher gives
the second task away, so that it is taken at once, in action 13, while the
worker still has that task in hand. -/
theorem backlog_in_hand_at_stop :
    0 < backlog.workers ∧ backlog.stop = .immediate ∧
      (Server.steps 12 backlog.stopping).dispatcher.duty = .take ∧
      (Server.steps 12 backlog.stopping).queue = [.stop] ∧
      (Server.steps 13 backlog.stopping).dispatcher.duty = .dismiss 0 ∧
      (Server.steps 13 backlog.stopping).requests Event.entered? =
        [Request.ofText "1+1".toList, Request.ofText "2*3".toList] ∧
      (Server.steps 13 backlog.stopping).requests Event.processed? =
        [Request.ofText "1+1".toList] ∧
      ¬∀ server position, backlog.Passes server → server.dispatcher.duty = .dismiss position →
        server.requests Event.processed? = server.requests Event.entered? := by
  refine ⟨by decide, rfl, by decide +kernel, by decide +kernel, by decide +kernel,
    by decide +kernel, by decide +kernel, ?_⟩
  intro processed
  have early := processed (Server.steps 13 backlog.stopping) 0 (.inl ⟨13, rfl⟩) (by decide +kernel)
  exact absurd early (by decide +kernel)

end Scenario

end Reckon.Service
