import Reckon.Proofs.Service.Forecast
import Reckon.Proofs.Service.Shutdown

/-!
# The service keeps to its sequence

However many workers a server has, it delivers and records what the service in
sequence does. Two observations lead there. First, requests are accepted in
batches: the acceptor does not run while a task is in anybody's hands, and when
it starts on a batch the queue is empty, so the length of the queue is the
number of requests of the batch accepted so far. Secondly, the *forecast* of a
server, its outlook followed by what the service in sequence does with the
arrivals to come, is the same after every move. It is the whole service in
sequence when the server starts, and what has been delivered and recorded when
nothing is left to do.
-/

namespace Reckon.Service

open Relation Service.Sequential

/-! ## Batches -/

/-- Only workers are ahead of the acceptor in the queue of ready threads. -/
def AcceptorNext (ready : List Thread) : Prop :=
  ∃ front later, ready = front ++ .acceptor :: later ∧
    ∀ thread ∈ front, ∃ index, thread = .worker index

theorem AcceptorNext.acceptorNext_append {ready : List Thread} (next : AcceptorNext ready)
    (thread : Thread) :
    AcceptorNext (ready ++ [thread]) := by
  obtain ⟨front, rest, rfl, workers⟩ := next
  exact ⟨front, rest ++ [thread], List.append_assoc _ _ _, workers⟩

/-- If the acceptor is next, it runs, or a worker ahead of it does. -/
theorem AcceptorNext.acceptorNext_head {thread : Thread} {later : List Thread}
    (next : AcceptorNext (thread :: later)) :
    thread = .acceptor ∨ (∃ index, thread = .worker index) ∧ AcceptorNext later := by
  obtain ⟨front, rest, order, workers⟩ := next
  cases front with
  | nil => exact .inl (List.cons.inj order).1
  | cons first others =>
    obtain ⟨rfl, behind⟩ := List.cons.inj order
    refine .inr ⟨workers _ List.mem_cons_self, others, rest, behind, ?_⟩
    intro thread member
    exact workers thread (List.mem_cons_of_mem _ member)

/-- The server gathers a batch: the acceptor is next, and nobody has taken a
task. -/
structure Server.Gathers (server : Server) : Prop where
  next : AcceptorNext server.ready
  untaken : server.dispatcher.duty = .take
  unemployed : ∀ worker ∈ server.workers, worker.job = none

/-- The server gathers a batch as long as the acceptor can run. Between two
batches the acceptor is put aside or waits. -/
def Server.Batched (server : Server) : Prop :=
  server.acceptor = .ready → server.Gathers

namespace Server

variable {server next : Server} {later : List Thread} {count : Nat}

/-- A server whose dispatcher runs does not gather a batch, as only workers run
before the acceptor does. -/
theorem Batched.idle_of_dispatcher (batched : server.Batched)
    (running : server.ready = .dispatcher :: later) : server.acceptor ≠ .ready := by
  intro ready
  have next := (batched ready).next
  rw [running] at next
  rcases next.acceptorNext_head with acceptor | ⟨⟨index, worker⟩, _⟩
  · cases acceptor
  · cases worker

/-- Before the server is told to stop, it gathers a batch whenever the acceptor
can run. The acceptor returns from a pause only when no thread can run, and then
the server is vacant; from there on until it leaves, nobody takes a task. -/
theorem Batched.batched_after_move (batched : server.Batched) (orderly : server.InOrder count)
    (staffed : 0 < count) (absent : server.closer = .absent) (move : Move server next) :
    next.Batched := by
  have sound := orderly.sound
  cases move with
  | resume quiet aside =>
    intro _
    have vacant := sound.vacant_of_quiet quiet (orderly.workers_ne_nil staffed) absent
    exact ⟨⟨[], [], rfl, nofun⟩, congrArg Dispatcher.duty vacant.dispatcher, vacant.workers⟩
  | await running listening exhausted => exact nofun
  | pause running listening next => exact nofun
  | retire running silent => exact nofun
  | drop running listening next faulty => exact fun ready => { batched ready with }
  | reject running listening next heard full => exact fun ready => { batched ready with }
  | enter running listening next heard room notified => exact fun ready => { batched ready with }
  | wakeDispatcher waiting =>
    exact fun ready =>
      { batched ready with next := (batched ready).next.acceptorNext_append .dispatcher }
  | starve running free empty =>
    exact fun ready => absurd ready (batched.idle_of_dispatcher running)
  | take running free front notified =>
    exact fun ready => absurd ready (batched.idle_of_dispatcher running)
  | heed running free front notified =>
    exact fun ready => absurd ready (batched.idle_of_dispatcher running)
  | place running holds found idle asleep =>
    exact fun ready => absurd ready (batched.idle_of_dispatcher running)
  | stall events running holds busy silent =>
    exact fun ready => absurd ready (batched.idle_of_dispatcher running)
  | linger running dismisses found busy =>
    exact fun ready => absurd ready (batched.idle_of_dispatcher running)
  | dismiss running dismisses found idle asleep =>
    exact fun ready => absurd ready (batched.idle_of_dispatcher running)
  | conclude running dismisses all =>
    exact fun ready => absurd ready (batched.idle_of_dispatcher running)
  | idle running found free =>
    intro ready
    obtain ⟨next, untaken, unemployed⟩ := batched ready
    rw [running] at next
    rcases next.acceptorNext_head with acceptor | ⟨_, behind⟩
    · cases acceptor
    · refine ⟨behind, untaken, fun worker member => ?_⟩
      rcases List.mem_or_eq_of_mem_set member with before | rfl
      · exact unemployed worker before
      · exact free
  | quit running found told =>
    intro ready
    cases told.symm.trans ((batched ready).unemployed _ (List.mem_of_getElem? found))
  | work running found given notified =>
    intro ready
    cases given.symm.trans ((batched ready).unemployed _ (List.mem_of_getElem? found))
  | silence running begins elsewhere => cases absent.symm.trans begins
  | interrupt running begins waiting => cases absent.symm.trans begins
  | order running ordering room notified => cases absent.symm.trans ordering
  | hold running ordering full => cases absent.symm.trans ordering
  | wakeCloser waiting => cases absent.symm.trans waiting

theorem batched_start (scenario : Scenario) : (Server.start scenario).Batched := by
  intro _
  refine ⟨⟨(List.range scenario.workers).map .worker, [.dispatcher], rfl, ?_⟩, rfl, ?_⟩
  · intro thread member
    obtain ⟨index, _, rfl⟩ := List.mem_map.mp member
    exact ⟨index, rfl⟩
  · intro worker member
    rw [List.eq_of_mem_replicate member]

/-! ## The forecast -/

/-- The number of requests of the batch at hand that have been accepted. Nobody
takes a task while a batch is gathered, so they are all in the queue. -/
def accepted (server : Server) : Nat :=
  if server.acceptor = .ready then server.queue.length else 0

/-- What the server will have delivered and recorded in the end, if it is not
told to stop before. -/
def forecast (server : Server) : Progress :=
  resume server.capacity server.accepted server.books.outlook server.arrivals

theorem outlook_closed (balanced : server.books.Balanced) (arrivals : List Arrival) (elapsed : Int)
    (delivered : String) {events : List Event} (quiet : ∀ event ∈ events, event.IsQuiet) :
    ({ server with
      arrivals
      elapsed
      connections := server.connections ++ [server.connection delivered 1] }.noteAll
        events).books.outlook = server.books.outlook.push delivered := by
  rw [books_noteAll_of_quiet _ quiet]
  exact outlook_turnAway balanced (server.connection delivered 1)

theorem outlook_entered (balanced : server.books.Balanced) (arrivals : List Arrival) (elapsed : Int)
    (incoming : Except String (List UInt8)) (sendFault : Option String) (text : List Char) :
    ({ server with
      arrivals
      elapsed
      connections := server.connections ++ [server.connection "" 0]
      queue := server.queue ++ [Job.task (server.taskFor sendFault text)] }.note
        (.queued (Request.ofText text))).books.outlook =
          server.books.outlook.settle ({ incoming, sendFault },
            .accepted (Request.ofText text)) := by
  have entered :=
    outlook_enter balanced (server.connection "" 0) (server.taskFor sendFault text) rfl rfl
      (server.books.entered ++ [Request.ofText text]) incoming
  simp only [books, ← Sound.waiting_enqueue] at entered
  rw [books_note_queued]
  exact entered

theorem forecast_eq {capacity accepted : Nat} {outlook : Progress} {arrivals : List Arrival}
    (sameOutlook : server.books.outlook = outlook) (sameCapacity : server.capacity = capacity)
    (sameAccepted : server.accepted = accepted) (sameArrivals : server.arrivals = arrivals) :
    server.forecast = resume capacity accepted outlook arrivals := by
  rw [forecast, sameCapacity, sameAccepted, sameOutlook, sameArrivals]

/-- A move that accepts nothing keeps the forecast, if it neither begins a batch
nor takes from one. -/
theorem forecast_of_same (capacity : next.capacity = server.capacity)
    (arrivals : next.arrivals = server.arrivals)
    (outlook : next.books.outlook = server.books.outlook)
    (accepted : server.arrivals = [] ∨ next.accepted = server.accepted) :
    next.forecast = server.forecast := by
  refine (forecast_eq outlook capacity rfl arrivals).trans ?_
  rcases accepted with exhausted | same
  · rw [forecast, exhausted]
    rfl
  · rw [same]
    rfl

theorem accepted_of_ready (ready : server.acceptor = .ready) :
    server.accepted = server.queue.length :=
  if_pos ready

/-- A queue has room for a request of the batch if fewer than its capacity have
been accepted. Thus the server and the service in sequence reject the same
requests. -/
theorem hasRoom_iff (ready : server.acceptor = .ready) :
    server.hasRoom = true ↔ server.capacity = 0 ∨ server.accepted < server.capacity := by
  simp [hasRoom, accepted_of_ready ready]

/-- Before the server is told to stop, every move keeps the forecast. A move
that accepts a call does with it what the service in sequence does next; any
other move leaves outlook and arrivals as they are. -/
theorem forecast_move (orderly : server.InOrder count) (staffed : 0 < count)
    (batched : server.Batched) (absent : server.closer = .absent) (move : Move server next) :
    next.forecast = server.forecast := by
  have sound := orderly.sound
  have kept := fun same => (sound.effect_of_move move).outlook_of_length same
  cases move with
  | resume quiet aside =>
    refine forecast_of_same rfl rfl (kept rfl) (.inr ?_)
    have vacant := sound.vacant_of_quiet quiet (orderly.workers_ne_nil staffed) absent
    simp [accepted, aside, vacant.queue]
  | await running listening exhausted => exact forecast_of_same rfl rfl (kept rfl) (.inl exhausted)
  | pause running listening next =>
    have same := kept rfl
    simp only [forecast, accepted, next, resume] at same ⊢
    rw [same]
    rfl
  | @drop later wait incoming sendFault arrivals fault running listening next faulty =>
    have quiet : ∀ event ∈ [Event.noRequest (callerAddress (server.connections.length + 1)) fault],
        event.IsQuiet := by
      intro event member
      obtain rfl := List.mem_singleton.mp member
      exact ⟨rfl, rfl, rfl⟩
    have outlook := outlook_closed orderly.balanced arrivals (server.elapsed + wait) "" quiet
    refine (forecast_eq outlook rfl rfl rfl).trans ?_
    simp only [forecast, next, resume, faulty]
    rfl
  | @reject later wait incoming sendFault arrivals text running listening next heard full =>
    have ready := sound.acceptor_ready running
    have outlook := outlook_closed orderly.balanced arrivals (server.elapsed + wait)
      (delivery Settings.rejection sendFault) (isQuiet_of_rejection (Request.ofText text) sendFault)
    have crowded : ¬(server.capacity = 0 ∨ server.accepted < server.capacity) := by
      rw [← hasRoom_iff ready, full]
      exact Bool.false_ne_true
    refine (forecast_eq outlook rfl rfl rfl).trans ?_
    simp only [forecast, next, resume, heard, if_neg crowded]
    rfl
  | @enter later wait incoming sendFault arrivals text running listening next heard room notified =>
    have ready := sound.acceptor_ready running
    have outlook := outlook_entered orderly.balanced arrivals (server.elapsed + wait) incoming
      sendFault text
    have free := (hasRoom_iff ready).mp room
    rw [accepted_of_ready ready] at free
    refine (forecast_eq outlook rfl (accepted_of_ready ready) rfl).trans ?_
    simp only [forecast, next, resume, heard, accepted_of_ready ready, if_pos free]
    simp only [note, List.length_append, List.length_singleton]
  | retire running silent =>
    have listening := sound.listens.mpr (.inl absent)
    cases silent.symm.trans listening
  | take running free front notified =>
    have idle := batched.idle_of_dispatcher running
    exact forecast_of_same rfl rfl (kept rfl) (.inr ((if_neg idle).trans (if_neg idle).symm))
  | heed running free front notified =>
    have idle := batched.idle_of_dispatcher running
    exact forecast_of_same rfl rfl (kept rfl) (.inr ((if_neg idle).trans (if_neg idle).symm))
  | work running found given notified =>
    exact forecast_of_same rfl rfl (kept (List.length_modify ..)) (.inr rfl)
  | silence running begins elsewhere => cases absent.symm.trans begins
  | interrupt running begins waiting => cases absent.symm.trans begins
  | order running ordering room notified => cases absent.symm.trans ordering
  | hold running ordering full => cases absent.symm.trans ordering
  | wakeCloser waiting => cases absent.symm.trans waiting
  | _ => exact forecast_of_same rfl rfl (kept rfl) (.inr rfl)

/-- Before the server is told to stop, no number of moves changes the
forecast. -/
theorem forecast_moves (orderly : server.InOrder count) (staffed : 0 < count)
    (batched : server.Batched) (absent : server.closer = .absent)
    (moves : ReflTransGen Move server next) :
    next.forecast = server.forecast := by
  suffices kept :
      next.Batched ∧ next.closer = .absent ∧ next.forecast = server.forecast from kept.2.2
  induction moves with
  | refl => exact ⟨batched, absent, rfl⟩
  | tail before last ih =>
    obtain ⟨still, untold, same⟩ := ih
    have between := orderly.inOrder_after_moves before
    exact ⟨still.batched_after_move between staffed untold last, last.closer_absent_iff.mpr untold,
      (forecast_move between staffed still untold last).trans same⟩

theorem forecast_start (scenario : Scenario) :
    (Server.start scenario).forecast =
      serve scenario.capacity scenario.timer scenario.arrivals := by
  rw [serve_eq_resume, forecast, books_start]
  rfl

/-- When nothing arrives any more, no number of moves changes the outlook, not
even after the order to stop. -/
theorem outlook_of_exhausted (orderly : server.InOrder count) (exhausted : server.arrivals = [])
    (moves : ReflTransGen Move server next) :
    next.arrivals = [] ∧ next.books.outlook = server.books.outlook := by
  induction moves with
  | refl => exact ⟨exhausted, rfl⟩
  | tail before last ih =>
    obtain ⟨still, same⟩ := ih
    obtain ⟨_, arrivals, length⟩ := last.unreachable_after (.inl still)
    have effect := (orderly.inOrder_after_moves before).sound.effect_of_move last
    exact ⟨arrivals.trans still, (effect.outlook_of_length length).trans same⟩

end Server

namespace Scenario

variable {scenario : Scenario}

/-- A server that is not told to stop before it is vacant has done by then what
the service in sequence does: with nothing to process and nothing to arrive, the
forecast is what has been done. -/
theorem progress_settle_start (scenario : Scenario) (staffed : 0 < scenario.workers) :
    (Server.start scenario).settle.books.progress =
      serve scenario.capacity scenario.timer scenario.arrivals := by
  have started := Server.InOrder.inOrder_start scenario
  obtain ⟨pending, exhausted⟩ := scenario.settle_start staffed
  calc (Server.start scenario).settle.books.progress
      = (Server.start scenario).settle.books.outlook := (outlook_of_pending pending).symm
    _ = (Server.start scenario).settle.forecast := by rw [Server.forecast, exhausted, resume]
    _ = (Server.start scenario).forecast :=
        Server.forecast_moves started staffed (Server.batched_start scenario) rfl
          (started.sound.moves_steps _)
    _ = serve scenario.capacity scenario.timer scenario.arrivals := Server.forecast_start scenario

/-- A run in which the server is not told to stop before it is vacant does what
the service in sequence does. It accepts whatever arrives, and leaves nothing to
process. -/
theorem progress_run (scenario : Scenario) (staffed : 0 < scenario.workers)
    (patient : scenario.stop ≠ .immediate) :
    scenario.run.books.progress = serve scenario.capacity scenario.timer scenario.arrivals ∧
      scenario.run.arrivals = [] ∧ scenario.run.books.pending = [] := by
  obtain ⟨pending, exhausted⟩ := scenario.settle_start staffed
  have reached := scenario.progress_settle_start staffed
  cases stop : scenario.stop with
  | immediate => exact absurd stop patient
  | never =>
    have run : scenario.run = (Server.start scenario).settle := by simp only [Scenario.run, stop]
    rw [run]
    exact ⟨reached, exhausted, pending⟩
  | drained =>
    have stopping := stopping_of_drained stop
    have untouched : scenario.stopping.books = (Server.start scenario).settle.books := by
      rw [stopping, Server.books_requestStop]
    have done := pending_of_drained staffed stop scenario.stopping.load
    have orderly := scenario.inOrder_stopping
    obtain ⟨still, outlook⟩ := Server.outlook_of_exhausted orderly
      (by rw [stopping]; exact exhausted) (orderly.sound.moves_steps scenario.stopping.load)
    rw [run_eq]
    refine ⟨?_, still, done⟩
    calc scenario.stopping.settle.books.progress
        = scenario.stopping.settle.books.outlook := (outlook_of_pending done).symm
      _ = scenario.stopping.books.outlook := outlook
      _ = (Server.start scenario).settle.books.outlook := by rw [untouched]
      _ = (Server.start scenario).settle.books.progress := outlook_of_pending pending
      _ = serve scenario.capacity scenario.timer scenario.arrivals := reached

/-- The number of workers makes no difference to what is delivered and recorded,
since it does not occur in the service in sequence. -/
theorem progress_run_workers (scenario : Scenario) (staffed : 0 < scenario.workers)
    (patient : scenario.stop ≠ .immediate) {workers : Nat} (positive : 0 < workers) :
    ({ scenario with workers } : Scenario).run.books.progress = scenario.run.books.progress := by
  have other := (progress_run { scenario with workers } positive patient).1
  exact other.trans (scenario.progress_run staffed patient).1.symm

/-- The server refines the service in sequence. With any number of workers, any
capacity and any arrivals, and if it is not told to stop before it is vacant,
every arrival is accepted, every connection is closed once, and the texts
delivered over them, the totals of the clients and the readings of the timer
that are left are those of the service in sequence. Another number of workers
makes no difference.

Proof: the forecast of a server is what it will have delivered and recorded in
the end. At the start it is the whole service in sequence (`forecast_start`),
and it is an invariant of all moves (`forecast_move`): tasks are processed in
the order in which they entered, and a request finds the queue full exactly if
its batch has filled it, because nobody takes a task while a batch is gathered
(`Batched`). When the server comes to rest there is nothing left to forecast,
and what the order to stop still causes does not show in the books. -/
theorem run_refines_serve (scenario : Scenario) (staffed : 0 < scenario.workers)
    (patient : scenario.stop ≠ .immediate) :
    scenario.run.arrivals = [] ∧
    (∀ connection ∈ scenario.run.connections, connection.closed = 1) ∧
    scenario.run.connections.map (·.delivered) =
      (serve scenario.capacity scenario.timer scenario.arrivals).delivered ∧
    scenario.run.totals = (serve scenario.capacity scenario.timer scenario.arrivals).totals ∧
    scenario.run.timer = (serve scenario.capacity scenario.timer scenario.arrivals).timer ∧
    ∀ workers, 0 < workers →
      ({ scenario with workers } : Scenario).run.connections.map (·.delivered) =
          scenario.run.connections.map (·.delivered) ∧
        ({ scenario with workers } : Scenario).run.totals = scenario.run.totals := by
  obtain ⟨reached, exhausted, done⟩ := scenario.progress_run staffed patient
  have orderly := scenario.passes_run.inOrder_of_passes
  refine ⟨exhausted, (orderly.processed_and_closed done).2, ?_, ?_, ?_, ?_⟩
  · exact congrArg Progress.delivered reached
  · exact congrArg Progress.totals reached
  · exact congrArg Progress.timer reached
  · intro workers positive
    have same := scenario.progress_run_workers staffed patient positive
    constructor
    · exact congrArg Progress.delivered same
    · exact congrArg Progress.totals same

/-- Two workers and room for one request in the queue: the second of two calls
finds it full, and the one after the pause does not. -/
def rush : Scenario :=
  { workers := 2
    capacity := 1
    timeout := 5
    timer := []
    stop := .drained
    shutdownFails := false
    arrivals :=
      [.call 0 (.ok "1+1".toUTF8.toList) none, .call 0 (.ok "2*3".toUTF8.toList) none, .pause 0,
        .call 0 (.ok "4-1".toUTF8.toList) none] }

/-- In the rush, three connections are served as in sequence, and the second one
is rejected. -/
theorem rush_is_served :
    0 < rush.workers ∧ rush.stop ≠ .immediate ∧
      (rush.run.connections.map (·.delivered))[1]? = some Settings.rejection ∧
      rush.run.connections.map (·.delivered) =
        (serve rush.capacity rush.timer rush.arrivals).delivered ∧
      rush.run.totals = (serve rush.capacity rush.timer rush.arrivals).totals := by
  obtain ⟨_, _, delivered, totals, _⟩ := run_refines_serve rush (by decide) (by decide)
  exact ⟨by decide, by decide, by decide +kernel, delivered, totals⟩

end Scenario

end Reckon.Service
