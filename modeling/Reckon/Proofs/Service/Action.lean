import Reckon.Proofs.Service.Sound
import Reckon.Service.Rest

/-!
# Actions are moves

An action of a sound server is one move or a few of them in a row:
`Sound.moves_step` says so for whatever thread is running. Soundness is needed,
since a worker that is given a job has to wait for it, and the running thread
has to exist. With this, everything that moves preserve holds at every point of
a run, and the server that has just been started is sound.
-/

namespace Reckon.Service

/-- To change an item of a list is to put the changed item in its place. Actions
are written in the first form, and moves in the second. -/
theorem modify_of_found {α : Type} {items : List α} {index : Nat} {item : α}
    (found : items[index]? = some item) (change : α → α) :
    items.modify index change = items.set index (change item) := by
  obtain ⟨bound, rfl⟩ := List.getElem?_eq_some_iff.mp found
  apply List.ext_getElem?
  intro position
  rw [List.getElem?_modify, List.getElem?_set]
  by_cases here : index = position
  · subst here
    simp [bound]
  · simp [here]

theorem modify_append_last {α : Type} (items : List α) (item : α) (change : α → α) :
    (items ++ [item]).modify items.length change = items ++ [change item] := by
  have found : (items ++ [item])[items.length]? = some item := by simp
  rw [modify_of_found found, List.set_append_right _ _ (Nat.le_refl _)]
  simp

namespace Server

variable {server : Server}

theorem ready_tail {thread : Thread} {later : List Thread}
    (running : server.ready = thread :: later) :
    server.ready = thread :: server.ready.tail := by
  simp [running]

/-- A waiting worker that is given a job is woken. -/
theorem assign_of_waiting {index : Nat} {worker : Worker}
    (found : server.workers[index]? = some worker) (waiting : worker.phase = .waiting) (job : Job) :
    server.assign index job =
      { server with
        workers := server.workers.set index { phase := .ready, job := some job }
        ready := server.ready ++ [.worker index] } := by
  have awaits : server.workers[index]?.any (·.phase = .waiting) = true := by simp [found, waiting]
  have changed : (server.workers.modify index fun worker =>
      { worker with job := some job, busy := true }).modify index
        (fun worker => { worker with phase := .ready }) =
        server.workers.set index { phase := .ready, job := some job } := by
    rw [List.modify_modify_eq, modify_of_found found]
    rfl
  simp only [assign, awaits, if_true, modifyWorker, changed]

/-- A task is placed by waking a waiting worker, and the dispatcher is free
again. -/
theorem place_of_waiting {index : Nat} {worker : Worker}
    (found : server.workers[index]? = some worker) (waiting : worker.phase = .waiting)
    (task : Task) :
    server.place index task =
      ({ server with
        workers := server.workers.set index { phase := .ready, job := some (.task task) }
        ready := server.ready ++ [.worker index]
        dispatcher := { server.dispatcher with duty := .take } } : Server).note
          (.assigned task.request) := by
  rw [place, assign_of_waiting found waiting]
  rfl

theorem not_starved (notified : server.dispatcher ≠ { phase := .waiting, duty := .take }) :
    ¬(server.dispatcher.phase = .waiting ∧ server.dispatcher.duty = .take) := by
  rintro ⟨waiting, free⟩
  apply notified
  rw [← waiting, ← free]

/-- What has left the queue makes room, which wakes a closer that waits for
it. -/
theorem wakeForRoom_of_waiting (queue : List Job) (waiting : server.closer = .waiting) :
    ({ server with queue } : Server).wakeForRoom =
      { server with queue, closer := .ordering, ready := server.ready ++ [.closer] } :=
  if_pos waiting

theorem wakeForRoom_of_ne (queue : List Job) (notified : server.closer ≠ .waiting) :
    ({ server with queue } : Server).wakeForRoom = { server with queue } :=
  if_neg notified

theorem awake_wakeDispatcher : server.wakeDispatcher.dispatcher.phase ≠ .waiting := by
  simp [wakeDispatcher]

/-- When no worker is found idle, all are busy. -/
theorem busy_of_idleWorker? (none : server.idleWorker? = none) :
    ∀ worker ∈ server.workers, worker.busy = true := by
  intro worker member
  simpa using List.findIdx?_eq_none_iff.mp none worker member

/-! ## What the acceptor and the closer do -/

/-- Send a reply and close the connection, with the events of this. The acceptor
and the workers do it alike. -/
def respond (server : Server) (connection : Nat) (reply : String) (before after : List Event)
    (lost : String → Event) (sendFault : Option String) : Server :=
  (server.noteAll (before ++ lossEvents lost sendFault ++ after)).close connection
    (delivery reply sendFault)

section Acceptor

variable {wait : Int} {incoming : Except String (List UInt8)} {sendFault : Option String}
  {arrivals : List Arrival} {text : List Char}

/-- Accept a call: it is taken from the arrivals, its waiting time passes, and
there is one connection more. -/
def takeCall (server : Server) (wait : Int) (arrivals : List Arrival) : Server :=
  { server with
    arrivals
    elapsed := server.elapsed + wait
    connections := server.connections ++ [{ timeout := server.timeout }] }

/-- The acceptor accepts a call that brings no request. -/
theorem accept_of_fault (listening : server.listening = true)
    (next : server.arrivals = .call wait incoming sendFault :: arrivals) {fault : Wire.Fault}
    (faulty : Wire.receive incoming = .error fault) :
    server.accept =
      ((server.takeCall wait arrivals).close server.connections.length "").note
        (.noRequest (callerAddress (server.connections.length + 1)) fault) := by
  rw [accept, if_pos listening, next]
  simp only [receive, faulty]
  rfl

/-- The acceptor accepts a call whose request enters the queue. -/
theorem accept_of_room (listening : server.listening = true)
    (next : server.arrivals = .call wait incoming sendFault :: arrivals)
    (heard : Wire.receive incoming = .ok text) (room : server.hasRoom = true) :
    server.accept =
      ({ server.takeCall wait arrivals with
        queue := server.queue ++ [Job.task (server.taskFor sendFault text)] }.wakeForJob).note
          (.queued (Request.ofText text)) := by
  have free : (server.takeCall wait arrivals).hasRoom = true := room
  simp only [takeCall] at free
  rw [accept, if_pos listening, next]
  simp only [receive, heard, free, if_true]
  rfl

/-- The acceptor accepts a call whose request finds the queue full. -/
theorem accept_of_full (listening : server.listening = true)
    (next : server.arrivals = .call wait incoming sendFault :: arrivals)
    (heard : Wire.receive incoming = .ok text) (full : server.hasRoom = false) :
    server.accept =
      (server.takeCall wait arrivals).respond server.connections.length Settings.rejection
        [.rejected (Request.ofText text)] [] (.rejectionLost (Request.ofText text)) sendFault := by
  have none : ¬(server.takeCall wait arrivals).hasRoom = true := Bool.eq_false_iff.mp full
  simp only [takeCall] at none
  rw [accept, if_pos listening, next]
  simp only [receive, heard, if_neg none, respond, List.append_nil]
  rfl

theorem accept_of_exhausted (listening : server.listening = true)
    (exhausted : server.arrivals = []) :
    server.accept = { server with acceptor := .waiting }.leave := by
  rw [accept, if_pos listening, exhausted]

theorem accept_of_pause (listening : server.listening = true)
    (next : server.arrivals = .pause wait :: arrivals) :
    server.accept =
      { server with arrivals, elapsed := server.elapsed + wait, acceptor := .aside }.leave := by
  rw [accept, if_pos listening, next]

end Acceptor

theorem shut_of_closing (closing : server.closer = .closing) :
    server.shut = { server.stopListening with closer := .ordering } := by
  simp only [shut, closing, stopListening_shutDown]

/-- A closer that has to give the order to stop does so, or waits for room. -/
theorem shut_of_ordering (ordering : server.closer = .ordering) :
    server.shut =
      if server.hasRoom then
        { { server with queue := server.queue ++ [Job.stop] }.wakeForJob with
          closer := .ended }.leave
      else { server with closer := .waiting }.leave := by
  simp only [shut, ordering]

theorem shut_of_ne (closing : server.closer ≠ .closing) (ordering : server.closer ≠ .ordering) :
    server.shut = server.leave := by
  unfold shut
  split <;> first | rfl | contradiction

end Server

namespace Sound

open Server Relation

variable {server : Server} {later : List Thread}

/-! ## The acceptor -/

/-- The acceptor deals with the next connection. There are three outcomes:
nothing is heard, or the request finds the queue full, or it enters. In the last
case the dispatcher is woken first, if it waits for a job. -/
theorem moves_receive (running : server.ready = .acceptor :: later)
    (listening : server.listening = true) {wait : Int} {incoming : Except String (List UInt8)}
    {sendFault : Option String} {arrivals : List Arrival}
    (next : server.arrivals = .call wait incoming sendFault :: arrivals) :
    ReflTransGen Move server
      ({ server with arrivals, elapsed := server.elapsed + wait }.receive incoming sendFault) := by
  cases heard : Wire.receive incoming with
  | error fault =>
    refine .single ?_
    simp only [Server.receive, heard, close, note, modify_append_last]
    exact .drop running listening next heard
  | ok text =>
    cases room : server.hasRoom with
    | false =>
      refine .single ?_
      have full : ∀ connections, ({ server with
          arrivals
          elapsed := server.elapsed + wait
          connections } : Server).hasRoom = false := fun _ => room
      simp only [Server.receive, heard, full, close, noteAll, modify_append_last]
      exact .reject running listening next heard room
    | true =>
      have free : ∀ connections, ({ server with
          arrivals
          elapsed := server.elapsed + wait
          connections } : Server).hasRoom = true := fun _ => room
      simp only [Server.receive, heard, free, if_true, wakeForJob]
      split
      · rename_i starved
        have waiting : server.dispatcher.phase = .waiting := congrArg Dispatcher.phase starved
        have woken : Move server server.wakeDispatcher := .wakeDispatcher waiting
        refine .tail (.single woken) ?_
        have front : server.wakeDispatcher.ready = .acceptor :: (later ++ [.dispatcher]) := by
          simp [wakeDispatcher, running]
        exact .enter front listening next heard room (fun starved => awake_wakeDispatcher starved.1)
      · rename_i notified
        exact .single (.enter running listening next heard room (not_starved notified))

/-- The acceptor acts: it deals with the next arrival, waits for one, or finds
that the server has stopped listening. -/
theorem moves_accept (running : server.ready = .acceptor :: later) :
    ReflTransGen Move server server.accept := by
  have front := ready_tail running
  unfold Server.accept
  split
  · rename_i listening
    split
    · rename_i exhausted
      exact .single (.await front listening exhausted)
    · rename_i next
      exact .single (.pause front listening next)
    · rename_i next
      exact moves_receive running listening next
  · rename_i silent
    exact .single (.retire front (Bool.eq_false_iff.mpr silent))

/-! ## The dispatcher -/

/-- While the dispatcher runs, a worker without a job waits. A worker that has
just become idle would stand in front of the dispatcher. -/
theorem idle_waiting (sound : Sound server) (running : server.ready = .dispatcher :: later)
    {index : Nat} {worker : Worker} (found : server.workers[index]? = some worker)
    (idle : worker.job = none) :
    worker.phase = .waiting := by
  have asleep := (running ▸ sound.schedule).idle_asleep id found idle
  have employed := sound.employed worker (List.mem_of_getElem? found)
  rw [Worker.Employed, idle] at employed
  exact employed.resolve_left asleep

/-- The dispatcher, which holds a task, gives it to a worker found idle. -/
theorem move_place (sound : Sound server) (running : server.ready = .dispatcher :: later)
    {task : Task} (holds : server.dispatcher.duty = .place task) {index : Nat}
    (found : server.idleWorker? = some index) : Move server (server.place index task) := by
  obtain ⟨worker, present, free⟩ := exists_of_idleWorker? server index found
  have idle := sound.job_of_idle present free
  have waiting := sound.idle_waiting running present idle
  rw [place_of_waiting present waiting]
  exact .place running holds present idle (by simp [waiting])

/-- The dispatcher takes a task when the closer does not wait for room, and does
with it what it can: it gives the task away, or waits for a worker. -/
theorem moves_take (sound : Sound server) (running : server.ready = .dispatcher :: later)
    (free : server.dispatcher.duty = .take) {task : Task} {rest : List Job}
    (front : server.queue = .task task :: rest) (notified : server.closer ≠ .waiting) :
    ReflTransGen Move server
      (let taken := ({ server with queue := rest } : Server).note (.taken task.request)
      match taken.idleWorker? with
      | some worker => taken.place worker task
      | none =>
        (((taken.note .allBusy).setDuty (.place task)).setDispatcherPhase .waiting).leave) := by
  refine .head (.take running free front notified) ?_
  simp only
  split
  · rename_i index found
    obtain ⟨worker, present, unused⟩ := exists_of_idleWorker? _ index found
    have idle := sound.job_of_idle present unused
    have waiting := sound.idle_waiting running present idle
    rw [place_of_waiting present waiting]
    exact .single (.place running rfl present idle (by simp [waiting]))
  · rename_i none
    have busy := sound.jobs_of_busy (busy_of_idleWorker? none)
    exact .single (.stall [.allBusy] (ready_tail running) rfl busy (by simp))

/-- The dispatcher acts, according to its duty. A closer that waits for room is
woken before a job is taken. -/
theorem moves_dispatch (sound : Sound server) (running : server.ready = .dispatcher :: later) :
    ReflTransGen Move server server.dispatch := by
  have front := ready_tail running
  have first : server.ready ++ [Thread.closer] = .dispatcher :: (later ++ [.closer]) := by
    simp [running]
  cases duty : server.dispatcher.duty with
  | take =>
    simp only [Server.dispatch, duty]
    split
    · rename_i empty
      exact .single (.starve front duty empty)
    · rename_i rest queue
      by_cases waiting : server.closer = .waiting
      · rw [wakeForRoom_of_waiting _ waiting]
        exact .head (.wakeCloser waiting) (.single (.heed first duty queue nofun))
      · rw [wakeForRoom_of_ne _ waiting]
        exact .single (.heed running duty queue waiting)
    · rename_i task rest queue
      by_cases waiting : server.closer = .waiting
      · have waking := Move.wakeCloser waiting
        rw [wakeForRoom_of_waiting _ waiting]
        exact .head waking ((sound.sound_after_move waking).moves_take first duty queue nofun)
      · rw [wakeForRoom_of_ne _ waiting]
        exact sound.moves_take running duty queue waiting
  | place task =>
    simp only [Server.dispatch, duty]
    split
    · rename_i index found
      exact .single (sound.move_place running duty found)
    · rename_i none
      have busy := sound.jobs_of_busy (busy_of_idleWorker? none)
      have stalling := Move.stall [] front duty busy (by simp)
      simp only [noteAll, List.map_nil, List.append_nil] at stalling
      exact .single stalling
  | dismiss next =>
    simp only [Server.dispatch, duty]
    split
    · rename_i none
      exact .single (.conclude front duty (List.getElem?_eq_none_iff.mp none))
    · rename_i worker found
      have flagged := sound.flagged worker (List.mem_of_getElem? found)
      cases job : worker.job with
      | some job' =>
        simp only [flagged, job, Option.isSome_some, if_true]
        exact .single (.linger front duty found job)
      | none =>
        have waiting := sound.idle_waiting running found job
        simp only [flagged, job, Option.isSome_none, Bool.false_eq_true, if_false]
        rw [assign_of_waiting found waiting]
        exact .single (.dismiss running duty found job (by simp [waiting]))

/-! ## The workers -/

/-- A worker acts, according to its job. A dispatcher that waits for a worker is
woken before this one is freed. -/
theorem moves_work (sound : Sound server) {index : Nat}
    (running : server.ready = .worker index :: later) :
    ReflTransGen Move server (server.work index) := by
  have front := ready_tail running
  obtain ⟨worker, found, awake⟩ := (sound.schedule.runnable (.worker index)).mp
    (running ▸ List.mem_cons_self)
  have flagged := sound.flagged worker (List.mem_of_getElem? found)
  simp only [work, found, modifyWorker, modify_of_found found]
  split
  · rename_i busy
    split
    · rename_i task given
      have same : (server.perform task).workers = server.workers := rfl
      simp only [same, modify_of_found found]
      unfold wakeForWorker
      split
      · rename_i waits
        refine .head (.wakeDispatcher waits.1) (.single ?_)
        have first : server.wakeDispatcher.ready = .worker index :: (later ++ [.dispatcher]) := by
          simp [wakeDispatcher, running]
        exact .work first found given (fun waiting => awake_wakeDispatcher waiting.1)
      · rename_i notified
        exact .single (.work running found given notified)
    · rename_i told
      exact .single (.quit front found told)
    · rename_i empty
      simp [busy, empty] at flagged
  · rename_i idle
    exact .single (.idle front found (sound.job_of_idle found (Bool.eq_false_iff.mpr idle)))

/-! ## The closer -/

/-- The closer acts: it ends the listening, gives the order to stop, or waits
for room to do so. -/
theorem moves_shut (sound : Sound server) (running : server.ready = .closer :: later) :
    ReflTransGen Move server server.shut := by
  have front := ready_tail running
  have runs : server.closer = .closing ∨ server.closer = .ordering :=
    (sound.schedule.runnable .closer).mp (running ▸ List.mem_cons_self)
  rcases runs with closing | ordering
  · simp only [shut, closing, stopListening_shutDown]
    unfold stopListening wakeAcceptor
    split
    · rename_i waiting
      exact .single (.interrupt running closing waiting)
    · rename_i elsewhere
      exact .single (.silence running closing elsewhere)
  · simp only [shut, ordering]
    cases room : server.hasRoom with
    | false => exact .single (.hold front ordering room)
    | true =>
      simp only [if_true, wakeForJob]
      split
      · rename_i starved
        have waiting : server.dispatcher.phase = .waiting := congrArg Dispatcher.phase starved
        have first : server.wakeDispatcher.ready = .closer :: (later ++ [.dispatcher]) := by
          simp [wakeDispatcher, running]
        refine .head (.wakeDispatcher waiting) (.single ?_)
        exact .order (ready_tail first) ordering room
          (fun starved => awake_wakeDispatcher starved.1)
      · rename_i notified
        exact .single (.order front ordering room (not_starved notified))

/-! ## Any thread -/

/-- An action of a sound server is made of moves, whichever thread runs. When
none can run, the acceptor may return from a pause. -/
theorem moves_step (sound : Sound server) : ReflTransGen Move server server.step := by
  unfold Server.step
  split
  · rename_i quiet
    split
    · rename_i aside
      exact .single (.resume quiet aside)
    · exact .refl
  · rename_i running
    exact moves_accept running
  · rename_i running
    exact sound.moves_dispatch running
  · rename_i running
    exact sound.moves_work running
  · rename_i running
    exact sound.moves_shut running

/-- Any number of actions of a sound server is made of moves. With it, what
every move preserves holds at every point of a run. -/
theorem moves_steps (sound : Sound server) (count : Nat) :
    ReflTransGen Move server (steps count server) := by
  induction count generalizing server with
  | zero => exact .refl
  | succ count ih => exact sound.moves_step.trans (ih (sound.sound_after_moves sound.moves_step))

/-! ## The start -/

theorem schedule_start (count : Nat) :
    Schedule ((List.range count).map .worker ++ [.acceptor, .dispatcher])
      (List.replicate count {}) .ready .ready .absent := by
  refine ⟨?_, ?_, ?_⟩
  · refine List.nodup_append.mpr ⟨?_, by simp, by simp⟩
    refine List.pairwise_map.mpr (List.nodup_range.imp ?_)
    intro first second different same
    exact different (Thread.worker.inj same)
  · intro thread
    cases thread with
    | worker index => simp [CanRun, List.getElem?_replicate, and_comm]
    | acceptor => simp [CanRun]
    | dispatcher => simp [CanRun]
    | closer => simp [CanRun]
  · refine List.pairwise_append.mpr ⟨?_, by simp [IsIdle], by simp [IsIdle]⟩
    refine List.pairwise_map.mpr (List.pairwise_lt_range.imp_of_mem ?_)
    intro first second present _ _ _
    exact ⟨{}, by simpa [List.getElem?_replicate] using present, rfl⟩

/-- A server that has just been started is sound. All of its threads are ready,
and its queue is empty. -/
theorem sound_start (scenario : Scenario) : Sound (Server.start scenario) where
  schedule := schedule_start scenario.workers
  employed := by
    intro worker member
    obtain rfl := List.eq_of_mem_replicate member
    exact .inl rfl
  flagged := by
    intro worker member
    obtain rfl := List.eq_of_mem_replicate member
    rfl
  starved := nofun
  stalled := nofun
  lingering := nofun
  concluded := nofun
  present := nofun
  queued := fun _ => ⟨by simp [Server.jobs, Server.start, note], [], rfl⟩
  dismissed := nofun
  listens := by simp [Server.start, note]
  awaits := nofun
  retired := nofun
  held := nofun

end Sound

end Reckon.Service
