import Reckon.Proofs.Service.Course

/-!
# Who has charge of a connection

From the moment it is accepted, a connection is in somebody's charge. Its task
is in the queue, or the dispatcher holds it, or it is in the slot of a worker;
otherwise the connection has been closed. `Server.places` lists where a
connection is found, once for each time that it is found there, so that a single
entry says two things: nobody else has the connection, and it has not been
closed twice.

Workers run in the order in which they stand in the queue of ready threads,
while the slots are looked at in the order of the workers. That the two views
agree on who has a task is `Sound.countP_inHand`; from there the balance of the
books gives the single entry.

A slot is written by two threads. The dispatcher fills it when the flag of the
worker says that it is empty, and the worker empties it when its task is done.
Since flag and slot agree whenever threads switch, no task is overwritten before
its worker has dealt with it: `Sound.slot_step`.
-/

namespace Reckon.Service

open Relation

/-- A place where an accepted connection can be found. -/
inductive Place where
  /-- Its task is in the queue. -/
  | queue
  /-- The dispatcher holds its task. -/
  | dispatcher
  /-- Its task is in the slot of a worker. -/
  | worker (index : Nat)
  /-- It has been closed. -/
  | closed
  deriving DecidableEq, Repr

def Job.serves (connection : Nat) (job : Job) : Bool :=
  job.task?.any fun task => task.connection = connection

/-- The number of orders to stop that the dispatcher has taken when it has this
duty. Dismissing workers is what follows such an order. -/
def Duty.ordersTaken : Duty → Nat
  | .take => 0
  | .place _ => 0
  | .dismiss _ => 1

namespace Server

def slot (server : Server) (index : Nat) : Option Job :=
  server.workers[index]?.bind fun worker => worker.job

/-- A thread has the task of a connection: it is a worker with that task in its
slot. -/
def entrusts (server : Server) (connection : Nat) (thread : Thread) : Bool :=
  (taskOf server.workers thread).any fun task => task.connection = connection

/-- The workers that have the task of a connection in their slots. -/
def holders (server : Server) (connection : Nat) : List Nat :=
  (List.range server.workers.length).filter fun index =>
    server.entrusts connection (.worker index)

def timesClosed (server : Server) (connection : Nat) : Nat :=
  (server.connections[connection]?.map fun accepted => accepted.closed).getD 0

/-- The places where a connection is found, each as often as it is found there.
The list has one entry for every task of the connection, and one for every time
that it has been closed. -/
def places (server : Server) (connection : Nat) : List Place :=
  List.replicate (server.queue.countP (Job.serves connection)) .queue ++
    List.replicate (server.dispatcher.duty.task?.toList.countP (·.connection = connection))
      .dispatcher ++
    (server.holders connection).map .worker ++
    List.replicate (server.timesClosed connection) .closed

/-- The orders to stop that have come into the queue: those still there, and the
one that the dispatcher has taken. -/
def ordersGiven (server : Server) : Nat :=
  server.queue.count .stop + server.dispatcher.duty.ordersTaken

/-- The number of orders to stop that come into the queue in the next actions,
as seen from how the queue changes. -/
def ordersAhead : Nat → Server → Nat
  | 0, _ => 0
  | count + 1, server =>
      (server.step.queue.count .stop - server.queue.count .stop) + ordersAhead count server.step

end Server

/-! ## One place for each connection -/

namespace Sound

variable {server : Server}

/-- A worker with a task in its slot is in the queue of ready threads, since it
can run. -/
theorem ready_of_task (sound : Sound server) {index : Nat} {task : Task}
    (holds : taskOf server.workers (.worker index) = some task) :
    Thread.worker index ∈ server.ready := by
  obtain ⟨worker, found, given⟩ := Option.bind_eq_some_iff.mp holds
  obtain ⟨job, present, same⟩ := Option.bind_eq_some_iff.mp given
  have employed := sound.employed worker (List.mem_of_getElem? found)
  cases job with
  | stop => cases same
  | task held =>
    rw [Worker.Employed, present] at employed
    exact (sound.schedule.runnable _).mpr ⟨worker, found, employed⟩

theorem mem_pending_of_slot (sound : Sound server) {index : Nat} {task : Task}
    (full : server.slot index = some (.task task)) : task ∈ server.books.pending := by
  have holds : taskOf server.workers (.worker index) = some task := by
    obtain ⟨worker, found, given⟩ := Option.bind_eq_some_iff.mp full
    simp [taskOf, found, given, Job.task?]
  exact List.mem_append_left _ (List.mem_filterMap.mpr ⟨_, sound.ready_of_task holds, holds⟩)

theorem exists_of_task {thread : Thread} {task : Task}
    (holds : taskOf server.workers thread = some task) :
    ∃ index < server.workers.length, thread = .worker index := by
  cases thread with
  | worker index =>
    obtain ⟨worker, found, _⟩ := Option.bind_eq_some_iff.mp holds
    exact ⟨index, (List.getElem?_eq_some_iff.mp found).1, rfl⟩
  | acceptor => cases holds
  | dispatcher => cases holds
  | closer => cases holds

/-- The tasks of a connection in the hands of running workers are those in the
slots. Every worker with a task stands in the queue of ready threads exactly
once, so both lists count the same workers in different orders. -/
theorem countP_inHand (sound : Sound server) (connection : Nat) :
    server.inHand.countP (·.connection = connection) = (server.holders connection).length := by
  have running : server.inHand.countP (·.connection = connection) =
      (server.ready.filter (server.entrusts connection)).length := by
    rw [Server.inHand, List.countP_filterMap, List.countP_eq_length_filter]
    refine congrArg List.length (List.filter_congr fun thread _ => ?_)
    rw [Server.entrusts]
    cases taskOf server.workers thread <;> rfl
  have listed : (server.holders connection).length =
      (((List.range server.workers.length).map Thread.worker).filter
        (server.entrusts connection)).length := by
    rw [List.filter_map, List.length_map]
    rfl
  have distinct : ((List.range server.workers.length).map Thread.worker).Nodup :=
    List.pairwise_map.mpr
      (List.nodup_range.imp fun different same => different (Thread.worker.inj same))
  rw [running, listed]
  refine List.Perm.length_eq ((List.perm_ext_iff_of_nodup (sound.schedule.distinct.filter _)
    (distinct.filter _)).mpr fun thread => ?_)
  rw [List.mem_filter, List.mem_filter]
  refine and_congr_left fun held => ?_
  obtain ⟨task, given, _⟩ := (Option.any_eq_true _ _).mp held
  obtain ⟨index, bound, rfl⟩ := exists_of_task given
  exact ⟨fun _ => List.mem_map_of_mem (List.mem_range.mpr bound),
    fun _ => sound.ready_of_task given⟩

/-- A connection is found in as many places as it has been closed, and as there
are tasks of it. -/
theorem length_places (sound : Sound server) (connection : Nat) :
    (server.places connection).length =
      server.timesClosed connection + server.books.pending.countP (·.connection = connection) := by
  have queued : server.queue.countP (Job.serves connection) =
      (server.queue.filterMap Job.task?).countP (·.connection = connection) := by
    rw [List.countP_filterMap]
    refine List.countP_congr fun job _ => ?_
    cases job <;> rfl
  have pending : server.books.pending =
      server.inHand ++ (server.dispatcher.duty.task?.toList ++ server.queue.filterMap Job.task?) :=
        rfl
  simp only [Server.places, pending, List.length_append, List.length_replicate, List.length_map,
    List.countP_append, sound.countP_inHand, queued]
  omega

end Sound

/-- An accepted connection is in one place, and there only once: the books are
balanced, so these numbers add up to one. -/
theorem Server.InOrder.exists_place {count : Nat} {server : Server} (orderly : server.InOrder count)
    {connection : Nat} (accepted : connection < server.connections.length) :
    ∃ place, server.places connection = [place] := by
  have found := List.getElem?_eq_getElem accepted
  have once := orderly.balanced.closedOnce connection _ found
  apply List.length_eq_one_iff.mp
  rw [orderly.sound.length_places, Server.timesClosed, found]
  exact once

/-! ## Slots are not overwritten -/

namespace Server

variable {server : Server}

theorem slot_assign_of_ne {index other : Nat} (different : index ≠ other) (job : Job) :
    (server.assign index job).slot other = server.slot other := by
  unfold assign
  simp only
  split <;> simp [slot, modifyWorker, different]

theorem ne_of_slot (sound : Sound server) {index other : Nat} {worker : Worker} {job : Job}
    (found : server.workers[index]? = some worker) (idle : worker.busy = false)
    (full : server.slot other = some job) : index ≠ other := by
  rintro rfl
  have empty := sound.job_of_idle found idle
  rw [slot, found, Option.bind_some, empty] at full
  cases full

theorem workers_wakeForRoom (server : Server) : server.wakeForRoom.workers = server.workers := by
  unfold wakeForRoom
  split <;> rfl

theorem workers_wakeForJob (server : Server) : server.wakeForJob.workers = server.workers := by
  unfold wakeForJob
  split <;> rfl

theorem workers_wakeForWorker (server : Server) :
    server.wakeForWorker.workers = server.workers := by
  unfold wakeForWorker
  split <;> rfl

/-- Neither the acceptor nor the closer touches a worker. -/
theorem workers_accept (server : Server) : server.accept.workers = server.workers := by
  unfold accept
  split
  · split
    · rfl
    · rfl
    · unfold receive
      simp only
      split
      · rfl
      · split
        · exact workers_wakeForJob _
        · rfl
  · rfl

theorem workers_stopListening (server : Server) :
    server.stopListening.workers = server.workers := by
  unfold stopListening wakeAcceptor
  split <;> rfl

theorem workers_shut (server : Server) : server.shut.workers = server.workers := by
  unfold shut
  split
  · simp only [workers_stopListening]
    split
    · rfl
    · exact workers_stopListening server
  · split
    · exact workers_wakeForJob _
    · rfl
  all_goals rfl

/-- The dispatcher gives jobs only to workers whose slots are empty. It goes by
their flags, which agree with the slots. -/
theorem slot_dispatch (sound : Sound server) {index : Nat} {job : Job}
    (full : server.slot index = some job) : server.dispatch.slot index = some job := by
  have kept {next : Server} (same : next.workers = server.workers) :
      next.slot index = some job := by
    rw [slot, same]
    exact full
  have placed {taken : Server} (same : taken.workers = server.workers) {other : Nat} (task : Task)
      (found : taken.idleWorker? = some other) :
      (taken.place other task).slot index = some job := by
    obtain ⟨worker, present, idle⟩ := exists_of_idleWorker? taken other found
    have different := ne_of_slot sound (same ▸ present) idle full
    exact (slot_assign_of_ne different _).trans (kept same)
  unfold dispatch
  split
  · split
    · exact kept rfl
    · exact kept (workers_wakeForRoom _)
    · rename_i task later _
      have same : (({ server with queue := later } : Server).wakeForRoom.note
          (.taken task.request)).workers = server.workers := workers_wakeForRoom _
      generalize ({ server with queue := later } : Server).wakeForRoom.note (.taken task.request) =
        taken at same ⊢
      simp only
      split
      · rename_i found
        exact placed same task found
      · exact kept same
  · split
    · rename_i found
      exact placed rfl _ found
    · exact kept rfl
  · split
    · exact kept rfl
    · rename_i worker found
      split
      · exact kept rfl
      · rename_i idle
        exact (slot_assign_of_ne (ne_of_slot sound found (Bool.eq_false_iff.mpr idle) full) _).trans
          full

theorem work_of_slot (sound : Sound server) {index : Nat} {task : Task}
    (full : server.slot index = some (.task task)) :
    server.work index =
      ((server.perform task).modifyWorker index Worker.free).wakeForWorker := by
  obtain ⟨worker, found, given⟩ := Option.bind_eq_some_iff.mp full
  have flagged := sound.flagged worker (List.mem_of_getElem? found)
  rw [given] at flagged
  simp only [work, found, given, flagged, Option.isSome_some, if_true]

/-- A worker that is running and has a task in its slot processes the task in
the next action. -/
theorem step_of_slot (sound : Sound server) {index : Nat} {task : Task} {later : List Thread}
    (running : server.ready = .worker index :: later)
    (full : server.slot index = some (.task task)) :
    server.step = ((server.perform task).modifyWorker index Worker.free).wakeForWorker := by
  rw [step, running]
  exact work_of_slot sound full

theorem connections_step_of_slot (sound : Sound server) {index : Nat} {task : Task}
    {later : List Thread} (running : server.ready = .worker index :: later)
    (full : server.slot index = some (.task task)) :
    server.step.connections = (server.perform task).connections := by
  rw [step_of_slot sound running full, wakeForWorker]
  split <;> rfl

theorem slot_work_of_ne {index other : Nat} (different : index ≠ other) :
    (server.work index).slot other = server.slot other := by
  have kept (base : Server) (same : base.workers = server.workers) (change : Worker → Worker) :
      ((base.modifyWorker index change).workers[other]?.bind fun worker => worker.job) =
        server.slot other := by
    simp [modifyWorker, slot, same, different]
  unfold work
  split
  · rfl
  · split
    · split
      · rw [slot, workers_wakeForWorker]
        exact kept _ rfl _
      · exact kept _ rfl _
      · exact kept _ rfl _
    · exact kept _ rfl _

theorem slot_work_of_task (sound : Sound server) {index : Nat} {task : Task}
    (full : server.slot index = some (.task task)) : (server.work index).slot index = none := by
  obtain ⟨worker, found, _⟩ := Option.bind_eq_some_iff.mp full
  rw [work_of_slot sound full, slot, workers_wakeForWorker]
  have same : (server.perform task).workers = server.workers := rfl
  simp [modifyWorker, same, found, Worker.free]

end Server

/-- A task stays in its slot until the worker has processed it, and then the
slot is empty. Of all threads only the dispatcher and this worker write the
slot. -/
theorem Sound.slot_step {server : Server} (sound : Sound server) {index : Nat} {task : Task}
    (full : server.slot index = some (.task task)) :
    server.step.slot index = some (.task task) ∨
      server.ready.head? = some (.worker index) ∧ server.step.slot index = none := by
  have kept (same : server.step.workers = server.workers) :
      server.step.slot index = some (.task task) := by
    rw [Server.slot, same]
    exact full
  cases order : server.ready with
  | nil =>
    refine .inl (kept ?_)
    unfold Server.step
    rw [order]
    simp only
    split <;> rfl
  | cons thread later =>
    cases thread with
    | acceptor =>
      refine .inl (kept ?_)
      rw [Server.step, order]
      exact server.workers_accept
    | dispatcher =>
      refine .inl ?_
      rw [Server.step, order]
      exact Server.slot_dispatch sound full
    | worker other =>
      have acts : server.step = server.work other := by rw [Server.step, order]
      rw [acts]
      by_cases same : other = index
      · subst same
        exact .inr ⟨rfl, Server.slot_work_of_task sound full⟩
      · exact .inl ((Server.slot_work_of_ne same).trans full)
    | closer =>
      refine .inl (kept ?_)
      rw [Server.step, order]
      exact server.workers_shut

/-- The connection of a task that is being processed is closed in the same
action, and after it the connection is nowhere else. -/
theorem Server.InOrder.places_step {count : Nat} {server : Server} (orderly : server.InOrder count)
    {index : Nat} {task : Task} (running : server.ready.head? = some (.worker index))
    (full : server.slot index = some (.task task)) :
    server.step.places task.connection = [.closed] := by
  obtain ⟨later, order⟩ := List.head?_eq_some_iff.mp running
  have known : task.connection < server.connections.length :=
    orderly.balanced.known task (orderly.sound.mem_pending_of_slot full)
  have connections := Server.connections_step_of_slot orderly.sound order full
  have closed : 0 < server.step.timesClosed task.connection := by
    rw [Server.timesClosed, connections]
    simp [Server.perform, Server.close, Server.noteAll, known]
  have accepted : task.connection < server.step.connections.length := by
    rw [connections]
    simpa [Server.perform, Server.close, Server.noteAll] using known
  obtain ⟨place, alone⟩ :=
    (orderly.inOrder_after_moves orderly.sound.moves_step).exists_place accepted
  have member : Place.closed ∈ server.step.places task.connection :=
    List.mem_append_right _ (List.mem_replicate.mpr ⟨Nat.ne_of_gt closed, rfl⟩)
  rw [alone, List.mem_singleton] at member
  rw [alone, member]

/-! ## One order to stop -/

section Orders

variable {server next : Server}

theorem Move.ordersTaken_le (move : Move server next) :
    server.dispatcher.duty.ordersTaken ≤ next.dispatcher.duty.ordersTaken := by
  cases move with
  | take running free front notified => simp [free, Duty.ordersTaken]
  | heed running free front notified => simp [free, Duty.ordersTaken]
  | place running holds found idle asleep => simp [holds, Duty.ordersTaken]
  | dismiss running dismisses found idle asleep => simp [dismisses, Duty.ordersTaken]
  | _ => exact Nat.le_refl _

theorem Move.closer_ended (move : Move server next) (ended : server.closer = .ended) :
    next.closer = .ended := by
  cases move with
  | silence running begins elsewhere => cases ended.symm.trans begins
  | interrupt running begins waiting => cases ended.symm.trans begins
  | order running ordering room notified => rfl
  | hold running ordering full => cases ended.symm.trans ordering
  | wakeCloser waiting => cases ended.symm.trans waiting
  | _ => exact ended

/-- The order to stop has come into the queue once if the closer has ended, and
else not at all. It may have been taken out again in the meantime. -/
theorem Sound.ordersGiven_eq (sound : Sound server) :
    server.ordersGiven = if server.closer = .ended then 1 else 0 := by
  have none (tasks : List Task) : (tasks.map Job.task).count .stop = 0 :=
    List.count_eq_zero.mpr fun member => by
      obtain ⟨task, _, same⟩ := List.mem_map.mp member
      cases same
  have undismissed (free : ∀ next, server.dispatcher.duty ≠ .dismiss next) :
      server.queue.count .stop = if server.closer = .ended then 1 else 0 := by
    obtain ⟨_, tasks, queue⟩ := sound.queued free
    rw [queue, List.count_append, none, Nat.zero_add]
    split <;> rfl
  cases duty : server.dispatcher.duty with
  | take =>
    rw [Server.ordersGiven, duty]
    exact undismissed (by simp [duty])
  | place task =>
    rw [Server.ordersGiven, duty]
    exact undismissed (by simp [duty])
  | dismiss next =>
    obtain ⟨ended, queue, _, _⟩ := sound.dismissed next duty
    rw [Server.ordersGiven, duty, queue, if_pos ended]
    rfl

/-- An action adds to the orders given what it puts into the queue, at least. An
order that is taken out is still counted. -/
theorem Sound.ordersGiven_step (sound : Sound server) :
    server.ordersGiven + (server.step.queue.count .stop - server.queue.count .stop) ≤
      server.step.ordersGiven := by
  have kept : server.dispatcher.duty.ordersTaken ≤ server.step.dispatcher.duty.ordersTaken ∧
      (server.closer = .ended → server.step.closer = .ended) := by
    have moves := sound.moves_step
    generalize server.step = last at moves
    induction moves with
    | refl => exact ⟨Nat.le_refl _, id⟩
    | tail _ move ih =>
      exact ⟨Nat.le_trans ih.1 move.ordersTaken_le, fun ended => move.closer_ended (ih.2 ended)⟩
  have given := sound.ordersGiven_eq
  have later := (sound.sound_after_moves sound.moves_step).ordersGiven_eq
  have grows : server.ordersGiven ≤ server.step.ordersGiven := by
    rw [given, later]
    split
    · rename_i ended
      exact Nat.le_of_eq (if_pos (kept.2 ended)).symm
    · exact Nat.zero_le _
  have taken := kept.1
  simp only [Server.ordersGiven] at grows ⊢
  omega

/-- However long a run goes on, one order to stop comes into the queue at most,
because the orders given are at most one at all times. -/
theorem Sound.ordersAhead_le (sound : Sound server) (count : Nat) :
    server.ordersGiven + server.ordersAhead count ≤ 1 := by
  induction count generalizing server with
  | zero =>
    rw [Server.ordersAhead, sound.ordersGiven_eq]
    split <;> omega
  | succ count ih =>
    have later := ih (sound.sound_after_moves sound.moves_step)
    have now := sound.ordersGiven_step
    rw [Server.ordersAhead]
    omega

/-- Nothing stands behind the order to stop in the queue. -/
theorem Sound.stop_last (sound : Sound server) {before after : List Job}
    (queue : server.queue = before ++ .stop :: after) : after = [] := by
  have free : ∀ next, server.dispatcher.duty ≠ .dismiss next := by
    intro next duty
    have empty := (sound.dismissed next duty).2.1
    simp [empty] at queue
  obtain ⟨_, tasks, order⟩ := sound.queued free
  rw [order] at queue
  clear order
  induction tasks generalizing before with
  | nil =>
    split at queue
    · obtain ⟨_, rest⟩ : before = [] ∧ after = [] := by
        simpa [List.singleton_eq_append_iff] using queue
      exact rest
    · simp at queue
  | cons task tasks ih =>
    cases before with
    | nil => cases (List.cons.inj queue).1
    | cons first before => exact ih (List.cons.inj queue).2

end Orders

/-! ## The queue keeps to its capacity -/

/-- The queue has the capacity that it was given, and does not exceed it. A
capacity of zero stands for no limit. -/
def Server.KeepsTo (capacity : Nat) (server : Server) : Prop :=
  server.capacity = capacity ∧ (0 < capacity → server.queue.length ≤ capacity)

theorem Server.KeepsTo.length_append_le {capacity : Nat} {server : Server}
    (keeps : server.KeepsTo capacity) (room : server.hasRoom = true) (job : Job)
    (bounded : 0 < capacity) :
    (server.queue ++ [job]).length ≤ capacity := by
  simp only [Server.hasRoom, keeps.1, Bool.or_eq_true, beq_iff_eq, decide_eq_true_eq] at room
  rw [List.length_append, List.length_singleton]
  omega

/-- A move does not let the queue exceed its capacity. Whoever puts a job into
it has made sure that there is room. -/
theorem Move.keepsTo_after {capacity : Nat} {server next : Server} (move : Move server next)
    (keeps : server.KeepsTo capacity) : next.KeepsTo capacity := by
  have shorter {job : Job} {rest : List Job} (front : server.queue = job :: rest) :
      0 < capacity → rest.length ≤ capacity := by
    intro bounded
    have before := keeps.2 bounded
    rw [front, List.length_cons] at before
    omega
  cases move with
  | enter running listening next heard room notified =>
    exact ⟨keeps.1, keeps.length_append_le room _⟩
  | order running ordering room notified => exact ⟨keeps.1, keeps.length_append_le room _⟩
  | take running free front notified => exact ⟨keeps.1, shorter front⟩
  | heed running free front notified => exact ⟨keeps.1, shorter front⟩
  | _ => exact keeps

namespace Scenario

variable {scenario : Scenario}

theorem Passes.keepsTo_capacity {server : Server} (passes : scenario.Passes server) :
    server.KeepsTo scenario.capacity := by
  refine passes.holds_of_moves ⟨rfl, fun _ => Nat.zero_le _⟩ (fun server keeps => keeps) ?_
  intro server next _ move keeps
  exact move.keepsTo_after keeps

/-- Nothing is in two hands, or in none. Whenever threads switch, an accepted
connection is in one place; if it has been closed, then once, and it is nowhere
else. A worker that is not busy has an empty slot. A task that is in a slot
stays there until its worker runs, which empties the slot and closes the
connection. The order to stop comes into the queue once, when the closer ends,
and no task stands behind it. The queue keeps to its capacity if it has one.

Proof: every server of a run is in order (`Passes.inOrder_of_passes`), and so
its books are balanced: a connection is closed once or has one task. That task
is found in one place, since the hands of running workers and the slots agree
(`Sound.countP_inHand`). What is said of slots and of the order to stop follows
from soundness, action by action (`Sound.slot_step`, `Sound.ordersAhead_le`). -/
theorem Passes.custody {server : Server} (passes : scenario.Passes server) :
    (∀ connection < server.connections.length, ∃ place, server.places connection = [place]) ∧
    (∀ worker ∈ server.workers, worker.busy = false → worker.job = none) ∧
    (∀ index task, server.slot index = some (.task task) →
      server.step.slot index = some (.task task) ∨
        server.ready.head? = some (.worker index) ∧ server.step.slot index = none ∧
          server.step.places task.connection = [.closed]) ∧
    server.ordersGiven = (if server.closer = .ended then 1 else 0) ∧
    (∀ count, server.ordersGiven + server.ordersAhead count ≤ 1) ∧
    (∀ before after, server.queue = before ++ .stop :: after → after = []) ∧
    (0 < scenario.capacity → server.queue.length ≤ scenario.capacity) := by
  have orderly := passes.inOrder_of_passes
  have sound := orderly.sound
  refine ⟨fun _ accepted => orderly.exists_place accepted, ?_, ?_, sound.ordersGiven_eq,
    sound.ordersAhead_le, fun _ _ => sound.stop_last, passes.keepsTo_capacity.2⟩
  · intro worker member idle
    obtain ⟨index, found⟩ := List.getElem?_of_mem member
    exact sound.job_of_idle found idle
  · intro index task full
    rcases sound.slot_step full with kept | ⟨running, emptied⟩
    · exact .inl kept
    · exact .inr ⟨running, emptied, orderly.places_step running full⟩

/-- One worker, a queue for three jobs, four calls, and the order to stop at
once. -/
def crowd : Scenario :=
  { workers := 1
    capacity := 3
    timeout := 5
    timer := []
    stop := .immediate
    shutdownFails := false
    arrivals := List.replicate 4 (.call 0 (.ok "1:6*7".toUTF8.toList) none) }

/-- A crowd of four is in all places at one time: the worker has the first, the
dispatcher holds the second, the third is in the queue, and the last has been
turned away. -/
theorem crowd_is_placed :
    crowd.Passes (Server.steps 8 crowd.stopping) ∧
      (List.range 4).map (Server.steps 8 crowd.stopping).places =
        [[.worker 0], [.dispatcher], [.queue], [.closed]] ∧
      ∃ place, (Server.steps 8 crowd.stopping).places 3 = [place] := by
  have passes : crowd.Passes (Server.steps 8 crowd.stopping) := .inl ⟨8, rfl⟩
  exact ⟨passes, by decide +kernel, (Passes.custody passes).1 3 (by decide +kernel)⟩

end Scenario

end Reckon.Service
