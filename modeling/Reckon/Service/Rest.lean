import Reckon.Service.Run

/-!
# The server comes to rest

The load of a server bounds the number of actions that are left to it:
`load_step_lt` says that every action lowers the load, whatever thread acts and
whatever state the others are in. So a server that has taken as many actions as
its load says is at rest, which is `isAtRest_settle`.

Each thread is treated on its own. Waking a thread raises the load by one at
most, and the action that wakes it always uses up more than that: an arrival, a
job in the queue, a job of a worker, or a part of the duty of the dispatcher or
of the closer. What changes one item of the queue or one worker changes the sums
of their loads by as much as the load of that item.
-/

namespace Reckon.Service.Server

open Weight

/-- A worker found idle exists and is not busy. -/
theorem exists_of_idleWorker? (server : Server) (index : Nat)
    (found : server.idleWorker? = some index) :
    ∃ worker, server.workers[index]? = some worker ∧ worker.busy = false := by
  unfold idleWorker? at found
  rw [List.findIdx?_eq_some_iff_getElem] at found
  obtain ⟨bound, idle, _⟩ := found
  exact ⟨server.workers[index], by simp [bound], by simpa using idle⟩

theorem dispatcher_assign (server : Server) (index : Nat) (job : Job) :
    (server.assign index job).dispatcher = server.dispatcher := by
  unfold assign
  simp only
  split <;> rfl

theorem length_workers_assign (server : Server) (index : Nat) (job : Job) :
    (server.assign index job).workers.length = server.workers.length := by
  unfold assign
  simp only
  split <;> simp [modifyWorker]

/-- Giving a worker a job adds the load of the job at most, and may wake the
worker. -/
theorem load_assign_le (server : Server) (index : Nat) (worker : Worker) (job : Job)
    (found : server.workers[index]? = some worker) :
    (server.assign index job).load ≤ server.load + jobLoad job + 1 := by
  have given := sum_map_modify workerLoad server.workers index
    (fun worker => { worker with job := some job, busy := true }) worker found
  have woken := map_modify_of_same workerLoad
    (server.workers.modify index fun worker => { worker with job := some job, busy := true }) index
    (fun worker => { worker with phase := .ready }) (fun _ => rfl)
  simp only [workerLoad, Option.map_some, Option.getD_some] at given
  unfold assign
  simp only
  split
  · simp only [load, modifyWorker, List.length_modify, List.length_append, List.length_singleton,
      woken] at *
    omega
  · simp only [load, modifyWorker, List.length_modify] at *
    omega

/-- Placing a task lets go of the duty and adds less than a held task weighs. -/
theorem load_place_le (server : Server) (index : Nat) (task : Task)
    (found : server.idleWorker? = some index) :
    (server.place index task).load + dutyLoad server.workers.length server.dispatcher.duty ≤
      server.load + 3 := by
  obtain ⟨worker, present, _⟩ := exists_of_idleWorker? server index found
  have assigned := load_assign_le server index worker (.task task) present
  simp only [load, place, note, setDuty, jobLoad, dispatcher_assign, length_workers_assign,
    dutyLoad] at *
  omega

/-- A connection that is accepted uses up an arrival, which weighs more than all
that may come of it: a task in the queue and a dispatcher that has been
woken. -/
theorem load_receive_lt (server : Server) (incoming : Except String (List UInt8))
    (sendFault : Option String) : (server.receive incoming sendFault).load < server.load + 8 := by
  unfold receive
  simp only
  split
  · simp [load, close, note]
  · split
    · simp only [wakeForJob]
      split
      · simp only [load, wakeDispatcher, note, List.length_append, List.length_singleton,
          List.map_append, List.sum_append, List.map_cons, List.map_nil, List.sum_cons,
          List.sum_nil, queuedLoad]
        omega
      · simp only [load, note, List.map_append, List.sum_append, List.map_cons, List.map_nil,
          List.sum_cons, List.sum_nil, queuedLoad]
        omega
    · simp [load, close, noteAll]

/-- The acceptor uses up an arrival or leaves. -/
theorem load_accept_lt (server : Server) (later : List Thread)
    (running : server.ready = .acceptor :: later) : server.accept.load < server.load := by
  unfold accept
  split
  · split
    · simp only [load, leave, running, acceptorLoad, List.tail_cons, List.length_cons]
      omega
    · rename_i wait rest arrivals
      simp only [load, leave, running, arrivals, acceptorLoad, List.tail_cons, List.length_cons]
      omega
    · rename_i wait incoming sendFault rest arrivals
      have received := load_receive_lt
        { server with arrivals := rest, elapsed := server.elapsed + wait } incoming sendFault
      have less :
          ({ server with arrivals := rest, elapsed := server.elapsed + wait } : Server).load + 8 =
          server.load := by
        simp only [load, arrivals, List.length_cons]
        omega
      omega
  · simp only [load, leave, note, running, acceptorLoad, List.tail_cons, List.length_cons]
    omega

/-- Taking a task out of the queue uses up its place there, even if the closer
is woken. -/
theorem load_take_task (server : Server) (task : Task) (rest : List Job)
    (queue : server.queue = .task task :: rest) :
    ({ server with queue := rest }.wakeForRoom).load + 5 ≤ server.load := by
  unfold wakeForRoom
  split
  · rename_i waiting
    have awaits : server.closer = .waiting := waiting
    simp only [load, queue, awaits, closerLoad, queuedLoad, List.map_cons, List.sum_cons,
      List.length_append, List.length_singleton]
    omega
  · simp only [load, queue, queuedLoad, List.map_cons, List.sum_cons]
    omega

theorem dispatcher_wakeForRoom (server : Server) :
    server.wakeForRoom.dispatcher = server.dispatcher := by
  unfold wakeForRoom
  split <;> rfl

/-- Making room in the queue adds threads behind those that are ready. -/
theorem ready_wakeForRoom (server : Server) :
    ∃ woken, server.wakeForRoom.ready = server.ready ++ woken := by
  unfold wakeForRoom
  split
  · exact ⟨[.closer], rfl⟩
  · exact ⟨[], (List.append_nil _).symm⟩

/-- Taking the order to stop uses up its place in the queue, which weighs more
than the dismissal of all workers. -/
theorem load_heed_lt (server : Server) (rest : List Job) (queue : server.queue = .stop :: rest)
    (free : server.dispatcher.duty = .take) :
    (({ server with queue := rest }.wakeForRoom).setDuty (.dismiss 0)).load < server.load := by
  unfold wakeForRoom
  split
  · rename_i waiting
    have awaits : server.closer = .waiting := waiting
    simp only [load, setDuty, free, queue, awaits, dutyLoad, queuedLoad, closerLoad,
      List.map_cons, List.sum_cons, List.length_append, List.length_cons, List.length_nil]
    omega
  · simp only [load, setDuty, free, queue, dutyLoad, queuedLoad, List.map_cons, List.sum_cons]
    omega

/-- A running dispatcher that has taken a task but finds no idle worker keeps
the task and leaves. -/
theorem load_stall_le (server : Server) (task : Task) (later : List Thread)
    (running : server.ready = .dispatcher :: later) (free : server.dispatcher.duty = .take) :
    (((server.note .allBusy).setDuty (.place task)).setDispatcherPhase .waiting).leave.load ≤
      server.load + 3 := by
  simp only [load, leave, setDispatcherPhase, setDuty, note, running, free, dutyLoad,
    List.tail_cons, List.length_cons]
  omega

/-- The dispatcher does a part of its duty or leaves. -/
theorem load_dispatch_lt (server : Server) (later : List Thread)
    (running : server.ready = .dispatcher :: later) : server.dispatch.load < server.load := by
  unfold dispatch
  split
  · rename_i duty
    split
    · simp [load, leave, setDispatcherPhase, running]
    · rename_i rest queue
      exact load_heed_lt server rest queue duty
    · rename_i task rest queue
      have used := load_take_task server task rest queue
      have same := dispatcher_wakeForRoom { server with queue := rest }
      obtain ⟨woken, ready⟩ := ready_wakeForRoom { server with queue := rest }
      generalize { server with queue := rest }.wakeForRoom = taken at *
      have noted : (taken.note (.taken task.request)).load = taken.load := rfl
      have front : (taken.note (.taken task.request)).ready = .dispatcher :: (later ++ woken) := by
        rw [← List.cons_append, ← running]
        exact ready
      have free : (taken.note (.taken task.request)).dispatcher.duty = .take :=
        (congrArg Dispatcher.duty same).trans duty
      simp only
      split
      · rename_i index found
        have placed := load_place_le _ index task found
        omega
      · have stalled := load_stall_le _ task (later ++ woken) front free
        omega
  · rename_i task duty
    split
    · rename_i index found
      have placed := load_place_le server index task found
      simp only [duty, dutyLoad] at placed
      omega
    · simp [load, leave, setDispatcherPhase, running]
  · rename_i next duty
    split
    · simp [load, leave, note, setDispatcherPhase, running]
    · rename_i worker found
      split
      · simp [load, leave, setDispatcherPhase, running]
      · have assigned := load_assign_le server next worker .stop found
        have bound : next < server.workers.length := (List.getElem?_eq_some_iff.mp found).1
        simp only [load, setDuty, jobLoad, dispatcher_assign, length_workers_assign, duty,
          dutyLoad] at *
        omega

/-- A worker does its job or leaves. -/
theorem load_work_lt (server : Server) (index : Nat) (later : List Thread)
    (running : server.ready = .worker index :: later) : (server.work index).load < server.load := by
  have staying (phase : Phase) := map_modify_of_same workerLoad server.workers index
    (fun worker => { worker with phase }) (fun _ => rfl)
  unfold work
  split
  · simp [load, leave, running]
  · rename_i worker present
    split
    · split
      · rename_i task given
        have freed := sum_map_modify workerLoad server.workers index Worker.free worker present
        simp only [workerLoad, given, Worker.free, Option.map_some, Option.getD_some, jobLoad,
          Option.map_none, Option.getD_none] at freed
        unfold wakeForWorker
        split
        · simp only [load, wakeDispatcher, modifyWorker, perform, noteAll, close,
            List.length_modify, List.length_append, List.length_singleton] at *
          omega
        · simp only [load, modifyWorker, perform, noteAll, close, List.length_modify] at *
          omega
      · simp [load, leave, modifyWorker, running, staying .ended]
      · simp [load, fail, modifyWorker, running, staying .ended]
    · simp [load, leave, modifyWorker, running, staying .waiting]

theorem load_wakeAcceptor_le (server : Server) : server.wakeAcceptor.load ≤ server.load + 1 := by
  unfold wakeAcceptor
  split
  · rename_i waiting
    simp only [load, waiting, acceptorLoad, List.length_append, List.length_singleton]
    omega
  · omega

/-- An acceptor that has been woken is not woken again. -/
theorem wakeAcceptor_wakeAcceptor (server : Server) :
    server.wakeAcceptor.wakeAcceptor = server.wakeAcceptor := by
  unfold wakeAcceptor
  split
  · simp
  · rfl

/-- Stopping to listen a second time has no effect. -/
theorem stopListening_stopListening (server : Server) :
    server.stopListening.stopListening = server.stopListening := by
  have same :
      ({ server.stopListening with listening := false } : Server) = server.stopListening := by
    unfold stopListening wakeAcceptor
    split <;> rfl
  rw [stopListening, same]
  exact wakeAcceptor_wakeAcceptor _

/-- The server stops listening when its socket is closed, whether or not
shutting it down before has had an effect. -/
theorem stopListening_shutDown (server : Server) :
    (if server.shutdownFails then server else server.stopListening).stopListening =
      server.stopListening := by
  split
  · rfl
  · exact stopListening_stopListening server

/-- The closer does a part of its work or leaves. -/
theorem load_shut_lt (server : Server) (later : List Thread)
    (running : server.ready = .closer :: later) : server.shut.load < server.load := by
  unfold shut
  split
  · rename_i closing
    have closer : server.stopListening.closer = .closing := by
      unfold stopListening wakeAcceptor
      split <;> exact closing
    have raised : server.stopListening.load ≤ server.load + 1 :=
      load_wakeAcceptor_le { server with listening := false }
    simp only [stopListening_shutDown]
    generalize server.stopListening = next at *
    have lowered : ({ next with closer := .ordering } : Server).load < next.load - 1 := by
      simp only [load, closer, closerLoad]
      omega
    exact Nat.lt_of_lt_of_le lowered (Nat.sub_le_of_le_add raised)
  · rename_i ordering
    split
    · unfold wakeForJob
      split
      · simp only [load, leave, wakeDispatcher, running, ordering, closerLoad, queuedLoad,
          List.map_append, List.sum_append, List.map_cons, List.map_nil, List.sum_cons,
          List.sum_nil, List.cons_append, List.tail_cons, List.length_append, List.length_cons,
          List.length_nil]
        omega
      · simp only [load, leave, running, ordering, closerLoad, queuedLoad, List.map_append,
          List.sum_append, List.map_cons, List.map_nil, List.sum_cons, List.sum_nil, List.tail_cons,
          List.length_cons]
        omega
    · simp only [load, leave, running, ordering, closerLoad, List.tail_cons, List.length_cons]
      omega
  all_goals simp [load, leave, running]

/-- Every action of a server that is not at rest lowers the load, whichever
thread is running. -/
theorem load_step_lt (server : Server) (active : server.isAtRest = false) :
    server.step.load < server.load := by
  unfold step
  split
  · rename_i idle
    split
    · rename_i aside
      simp [load, idle, aside, acceptorLoad]
    · rename_i present
      simp [isAtRest, idle, present] at active
  · rename_i later running
    exact load_accept_lt server later running
  · rename_i later running
    exact load_dispatch_lt server later running
  · rename_i index later running
    exact load_work_lt server index later running
  · rename_i later running
    exact load_shut_lt server later running

/-- A server at rest does nothing more. -/
theorem step_of_isAtRest (server : Server) (rest : server.isAtRest = true) :
    server.step = server := by
  simp only [isAtRest, Bool.and_eq_true, List.isEmpty_iff, bne_iff_ne, ne_eq] at rest
  simp [step, rest.1, rest.2]

/-- A server at rest stays as it is, however many actions it is given. -/
theorem steps_of_isAtRest (count : Nat) (server : Server) (rest : server.isAtRest = true) :
    steps count server = server := by
  induction count with
  | zero => rfl
  | succ count ih => rw [steps, step_of_isAtRest server rest, ih]

/-- As many actions as the load says bring a server to rest, by induction on
their number: each of them lowers the load, until there is none. -/
theorem isAtRest_steps (count : Nat) (server : Server) (enough : server.load ≤ count) :
    (steps count server).isAtRest = true := by
  induction count generalizing server with
  | zero =>
    cases rest : server.isAtRest with
    | true => exact rest
    | false =>
      have less := load_step_lt server rest
      omega
  | succ count ih =>
    cases rest : server.isAtRest with
    | true => rw [steps_of_isAtRest (count + 1) server rest, rest]
    | false =>
      have less := load_step_lt server rest
      exact ih server.step (by omega)

/-- A settled server is at rest. -/
theorem isAtRest_settle (server : Server) : server.settle.isAtRest = true :=
  isAtRest_steps server.load server (Nat.le_refl _)

end Reckon.Service.Server
