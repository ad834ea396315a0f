import Reckon.Proofs.Batch.Served
import Reckon.Proofs.Service.Faults

/-!
# A lost reply disturbs nobody

Two runs of one scenario differ in that some connections have been given a fault
in one of them. The runs go in step: after as many actions, the troubled server
is the calm one with faults, because no thread asks whether a reply has arrived.
So the times and the totals, the flags, the queue and the socket are the same,
and so are all other connections. The troubled journal has an entry more for
every reply that is lost, and no other.

What is lost is accounted for connection by connection: `Losses` pairs each
entry that comes on top with the connection whose reply it reports.
-/

namespace Reckon.Service

open Service.Sequential (Call)

variable {faults : Nat → Option String} {all : List Call}

/-! ## The acceptor -/

section Acceptor

variable {server : Server} {log : List Entry} {wait : Int} {incoming : Except String (List UInt8)}
  {sendFault : Option String} {arrivals : List Arrival} {text : List Char}

theorem Silent.silent_pause (wait : Int) (arrivals : List Arrival) :
    Silent faults
      (fun server =>
        { server with arrivals, elapsed := server.elapsed + wait, acceptor := .aside })
      (fun server =>
        { server with
          arrivals := withFaultsFrom faults server.connections.length arrivals
          elapsed := server.elapsed + wait
          acceptor := .aside }) where
  same server log := by simp only [Server.withFaults, List.length_mapIdx]
  log _ := rfl
  connections _ := rfl

theorem takeCall_withFaults (server : Server) (log : List Entry) (wait : Int)
    (arrivals : List Arrival) :
    (server.withFaults faults log).takeCall wait
        (withFaultsFrom faults (server.connections.length + 1) arrivals) =
      (server.takeCall wait arrivals).withFaults faults log := by
  have latest (fault : Option String) :
      Connection.withFault fault { timeout := server.timeout } = { timeout := server.timeout } := by
    rw [Connection.withFault, delivery_empty]
  simp only [Server.takeCall, Server.withFaults, List.mapIdx_append, List.length_append,
    List.length_singleton, List.mapIdx_cons, List.mapIdx_nil, latest]

theorem deliveredTo_takeCall (server : Server) (wait : Int) (arrivals : List Arrival)
    (index : Nat) :
    (server.takeCall wait arrivals).deliveredTo index = server.deliveredTo index := by
  rw [Server.deliveredTo, Server.deliveredTo, Server.takeCall]
  rcases Nat.lt_trichotomy index server.connections.length with before | rfl | after
  · rw [List.getElem?_append_left before]
  · simp
  · rw [List.getElem?_append_right (Nat.le_of_lt after)]
    have beyond : index - server.connections.length ≠ 0 := Nat.sub_ne_zero_of_lt after
    have none : server.connections[index]? = none :=
      List.getElem?_eq_none (Nat.le_of_lt after)
    simp [none, beyond]

theorem deliveredTo_next (server : Server) : server.deliveredTo server.connections.length = "" := by
  simp [Server.deliveredTo]

/-- A call has been accepted in both servers. The later calls keep the faults of
the connections that they will have. -/
theorem Alike.alike_takeCall (server : Server) (log : List Entry) (wait : Int)
    (arrivals : List Arrival) :
    Alike all faults server log (server.takeCall wait arrivals)
      ((server.withFaults faults log).takeCall wait
        (withFaultsFrom faults (server.connections.length + 1) arrivals)) :=
  ⟨log, takeCall_withFaults server log wait arrivals,
    .change_of_same rfl (deliveredTo_takeCall server wait arrivals)⟩

/-- The acceptor deals with a call. If nothing is heard, or the request enters
the queue, nothing is delivered; if it is rejected, the rejection may be
lost. -/
theorem Alike.alike_acceptCall (follows : server.Follows all) (log : List Entry)
    (listening : server.listening = true)
    (next : server.arrivals = .call wait incoming sendFault :: arrivals) :
    Alike all faults server log server.accept (server.withFaults faults log).accept := by
  have taken : Alike all faults server log _ _ := .alike_takeCall server log wait arrivals
  have known := (follows.next_call next).1
  have listeningWith : (server.withFaults faults log).listening = true := listening
  have nextWith : (server.withFaults faults log).arrivals =
      .call wait incoming (sendFault.or (faults server.connections.length)) ::
        withFaultsFrom faults (server.connections.length + 1) arrivals := by
    rw [Server.withFaults, next]
    rfl
  have lengthWith : (server.withFaults faults log).connections.length = server.connections.length :=
    List.length_mapIdx
  have accepted :
      server.connections.length < (server.takeCall wait arrivals).connections.length := by
    simp [Server.takeCall]
  cases heard : Wire.receive incoming with
  | error fault =>
    rw [Server.accept_of_fault listening next heard,
      Server.accept_of_fault listeningWith nextWith heard, lengthWith]
    refine (taken.alike_close accepted ?_).alike_note _
    rw [deliveredTo_takeCall, deliveredTo_next]
  | ok text =>
    cases room : server.hasRoom with
    | true =>
      have queueWith : (server.withFaults faults log).queue ++
          [Job.task ((server.withFaults faults log).taskFor
            (sendFault.or (faults server.connections.length)) text)] =
          (server.queue ++
          [Job.task (server.taskFor sendFault text)]).map (Job.withFaults faults) := by
        rw [Server.taskFor, lengthWith, List.map_append]
        rfl
      rw [Server.accept_of_room listening next heard room,
        Server.accept_of_room listeningWith nextWith heard
        ((hasRoom_withFaults server log).trans room), queueWith]
      exact ((taken.alike_of_silent (.silent_queue _)).alike_of_silent
        .silent_wakeForJob).alike_note _
    | false =>
      rw [Server.accept_of_full listening next heard room,
        Server.accept_of_full listeningWith nextWith heard
        ((hasRoom_withFaults server log).trans room), lengthWith, takeCall_withFaults]
      have journal : (server.takeCall wait arrivals).log = server.log := rfl
      have present : Settings.rejection ≠ "" := by decide
      have asked :
          all[server.connections.length]?.bind Call.request? = some (Request.ofText text) := by
        rw [known, Option.bind_some, Call.request?, heard]
      exact .alike_respond journal (deliveredTo_takeCall server wait arrivals) accepted
        (deliveredTo_next server) present asked _ _ (fun _ => rfl) _

theorem Alike.alike_accept (follows : server.Follows all) (log : List Entry) :
    Alike all faults server log server.accept (server.withFaults faults log).accept := by
  have start : Alike all faults server log server (server.withFaults faults log) := .refl server log
  by_cases listening : server.listening = true
  · have listeningWith : (server.withFaults faults log).listening = true := listening
    have arrivalsWith : (server.withFaults faults log).arrivals =
        withFaultsFrom faults
          (server.withFaults faults log).connections.length server.arrivals := by
      simp only [Server.withFaults, List.length_mapIdx]
    cases next : server.arrivals with
    | nil =>
      rw [next] at arrivalsWith
      rw [Server.accept_of_exhausted listening next,
        Server.accept_of_exhausted listeningWith arrivalsWith]
      exact (start.alike_of_silent (.silent_acceptor .waiting)).alike_of_silent .silent_leave
    | cons arrival arrivals =>
      cases arrival with
      | pause wait =>
        rw [next] at arrivalsWith
        rw [Server.accept_of_pause listening next,
          Server.accept_of_pause listeningWith arrivalsWith]
        exact (start.alike_of_silent (.silent_pause wait arrivals)).alike_of_silent .silent_leave
      | call wait incoming sendFault => exact .alike_acceptCall follows log listening next
  · have silentWith : ¬(server.withFaults faults log).listening = true := listening
    rw [Server.accept, if_neg listening, Server.accept, if_neg silentWith]
    exact ((start.alike_note .acceptorStopped).alike_of_silent
      (.silent_acceptor .ended)).alike_of_silent .silent_leave

end Acceptor

/-! ## The workers -/

section Workers

variable {server : Server} {log : List Entry} {count : Nat} {task : Task}

/-- Nothing has been delivered over the connection of a task that is still to be
processed, since that connection has not been closed. -/
theorem Server.InOrder.nothing_delivered (orderly : server.InOrder count)
    (follows : server.Follows all) (member : task ∈ server.books.pending) :
    server.deliveredTo task.connection = "" := by
  have known : task.connection < server.connections.length := orderly.balanced.known task member
  have found := List.getElem?_eq_getElem known
  have once := orderly.balanced.closedOnce task.connection _ found
  have waits : 0 < server.books.pending.countP (·.connection = task.connection) :=
    List.countP_pos_iff.mpr ⟨task, member, decide_eq_true rfl⟩
  obtain ⟨_, _, fate⟩ := follows.books.fates task.connection _ found
  rw [Server.deliveredTo, found]
  exact fate.nothing_of_unclosed (by omega)

/-- A worker processes a task. The expression is evaluated and the time recorded
before the reply is sent, so both servers do the same up to that point. -/
theorem Alike.alike_perform (orderly : server.InOrder count) (follows : server.Follows all)
    (log : List Entry) (member : task ∈ server.books.pending) :
    Alike all faults server log (server.perform task)
      ((server.withFaults faults log).perform (task.withFaults faults)) := by
  obtain ⟨call, known, own⟩ := follows.books.tasks task member
  have asked : all[task.connection]?.bind Call.request? = some task.request := by
    rw [known, Option.bind_some, own.request]
  have reported (fault : String) : Event.replyLost task.request fault =
      lossEvent task.request (outcomeText (evaluate task.request.expression.toList)) fault :=
    (if_neg (Batch.outcomeText_ne_rejection _)).symm
  let base : Server :=
    { server with
      totals := server.totals.record task.request.client (.measured server.timing.milliseconds)
      timer := server.timer.drop 2 }
  have journal : base.log = server.log := rfl
  exact .alike_respond journal (fun _ => rfl) (orderly.balanced.known task member)
    (orderly.nothing_delivered follows member) (Batch.outcomeText_ne_empty _) asked _ _ reported _

theorem Alike.alike_work (orderly : server.InOrder count) (follows : server.Follows all)
    (log : List Entry) (index : Nat) :
    Alike all faults server log (server.work index)
      ((server.withFaults faults log).work index) := by
  have start : Alike all faults server log server (server.withFaults faults log) := .refl server log
  have workersWith : (server.withFaults faults log).workers =
      server.workers.map (Worker.withFaults faults) := rfl
  have phased (phase : Phase) : Silent faults
      (·.modifyWorker index fun worker => { worker with phase })
      (·.modifyWorker index fun worker => { worker with phase }) :=
    .silent_modifyWorker index fun _ => rfl
  unfold Server.work
  rw [workersWith, List.getElem?_map]
  cases found : server.workers[index]? with
  | none => exact start.alike_of_silent .silent_leave
  | some worker =>
    have flagged : (worker.withFaults faults).busy = worker.busy := rfl
    have jobWith : (worker.withFaults faults).job = worker.job.map (Job.withFaults faults) := rfl
    simp only [Option.map_some, flagged, jobWith]
    split
    · cases given : worker.job with
      | none =>
        exact (start.alike_of_silent (phased .ended)).alike_of_silent (.silent_fail (.worker index))
      | some job =>
        cases job with
        | stop => exact (start.alike_of_silent (phased .ended)).alike_of_silent .silent_leave
        | task task =>
          have full : server.slot index = some (.task task) := by
            rw [Server.slot, found, Option.bind_some, given]
          have performed : Alike all faults server log _ _ :=
            .alike_perform orderly follows log (orderly.sound.mem_pending_of_slot full)
          have freed : Silent faults (·.modifyWorker index Worker.free)
              (·.modifyWorker index Worker.free) := .silent_modifyWorker index fun _ => rfl
          exact (performed.alike_of_silent freed).alike_of_silent .silent_wakeForWorker
    · exact (start.alike_of_silent (phased .waiting)).alike_of_silent .silent_leave

end Workers

/-- An action of the running thread is the same in both servers, up to a reply
that is lost. -/
theorem Alike.alike_step {server : Server} {count : Nat} (orderly : server.InOrder count)
    (follows : server.Follows all) (log : List Entry) :
    Alike all faults server log server.step (server.withFaults faults log).step := by
  have readyWith : (server.withFaults faults log).ready = server.ready := rfl
  have resumed : Silent faults
      (fun server => { server with acceptor := .ready, ready := [.acceptor] })
      (fun server => { server with acceptor := .ready, ready := [.acceptor] }) :=
    ⟨fun _ _ => rfl, fun _ => rfl, fun _ => rfl⟩
  have resumes : Silent faults
      (fun server =>
        if server.acceptor = .aside then { server with acceptor := .ready, ready := [.acceptor] }
        else server)
      (fun server =>
        if server.acceptor = .aside then { server with acceptor := .ready, ready := [.acceptor] }
        else server) :=
    resumed.silent_ite fun _ _ => Iff.rfl
  unfold Server.step
  rw [readyWith]
  cases server.ready with
  | nil => exact (Alike.refl server log).alike_of_silent resumes
  | cons thread later =>
    cases thread with
    | worker index => exact .alike_work orderly follows log index
    | acceptor => exact .alike_accept follows log
    | dispatcher => exact .alike_dispatch server log
    | closer => exact .alike_shut server log

/-! ## The account of losses -/

/-- The entries that the troubled journal has on top of the calm one, each with
the connection whose reply it reports to be lost. This is what is carried from
action to action. -/
structure Losses (all : List Call) (faults : Nat → Option String) (calm : Server) (log : List Entry)
    (lost : List (Nat × Entry)) : Prop where
  /-- The other entries are in their order. -/
  kept : calm.log.Sublist log
  /-- There are no further entries. -/
  added : log.Perm (calm.log ++ lost.map Prod.snd)
  /-- A connection has one entry at most. -/
  once : (lost.map Prod.fst).Nodup
  /-- Those connections have one that have been given a fault and are sent a
  reply without it. -/
  exactly (index : Nat) :
    index ∈ lost.map Prod.fst ↔ (faults index).isSome = true ∧ calm.deliveredTo index ≠ ""
  /-- The entry reports that the reply to the request of this very call was
  lost. -/
  reported (index : Nat) (entry : Entry) : (index, entry) ∈ lost → ∃ request fault,
    all[index]?.bind Call.request? = some request ∧ faults index = some fault ∧
      entry.event = lossEvent request (calm.deliveredTo index) fault

/-- A change is accounted for: either there is nothing to add, or the one reply
that was lost, over a connection that had not been sent any. -/
theorem Change.exists_losses {server next : Server} {log written : List Entry}
    {lost : List (Nat × Entry)} (changed : Change all faults server next log written)
    (losses : Losses all faults server log lost) : ∃ lost, Losses all faults next written lost := by
  cases changed with
  | quiet entries written silent =>
    refine ⟨lost, ?_, ?_, losses.once, ?_, ?_⟩
    · rw [written]
      exact losses.kept.append_right entries
    · refine List.perm_iff_count.mpr fun entry => ?_
      have counts := losses.added.count_eq entry
      simp only [written, List.count_append] at counts ⊢
      omega
    · intro index
      rw [losses.exactly]
      refine and_congr_right fun faulty => ?_
      rw [silent index faulty]
    · intro index entry member
      obtain ⟨request, fault, asked, faulty, event⟩ := losses.reported index entry member
      refine ⟨request, fault, asked, faulty, ?_⟩
      rw [silent index (faulty ▸ rfl), event]
  | loss before after index fault request entry asked faulty written fresh arrives others
      reported =>
    have unlisted : index ∉ lost.map Prod.fst := fun member =>
      ((losses.exactly index).mp member).2 fresh
    refine ⟨(index, entry) :: lost, ?_, ?_, ?_, ?_, ?_⟩
    · rw [written]
      exact losses.kept.append ((List.sublist_cons_self entry after).append_left before)
    · refine List.perm_iff_count.mpr fun other => ?_
      have counts := losses.added.count_eq other
      simp only [written, List.map_cons, List.count_append, List.count_cons] at counts ⊢
      omega
    · exact List.nodup_cons.mpr ⟨unlisted, losses.once⟩
    · intro other
      rw [List.map_cons, List.mem_cons, losses.exactly]
      by_cases same : index = other
      · subst same
        simp [faulty, arrives]
      · rw [others other same]
        simp [Ne.symm same]
    · intro other reporting member
      rcases List.mem_cons.mp member with latest | before
      · obtain ⟨rfl, rfl⟩ := Prod.mk.inj latest
        exact ⟨request, fault, asked, faulty, reported⟩
      · have different : index ≠ other := by
          rintro rfl
          exact unlisted (List.mem_map_of_mem before)
        rw [others other different]
        exact losses.reported other reporting before

/-- As many actions of both servers later, they still differ in faults only, and
the losses on the way are accounted for. The induction is on the actions. -/
theorem Scenario.Passes.steps_withFaults {scenario : Scenario} {server : Server}
    (passes : scenario.Passes server) {log : List Entry} {lost : List (Nat × Entry)}
    (losses : Losses (calls scenario.arrivals) faults server log lost) (count : Nat) :
    ∃ written lost,
      Server.steps count (server.withFaults faults log) =
        (Server.steps count server).withFaults faults written ∧
      Losses (calls scenario.arrivals) faults (Server.steps count server) written lost := by
  induction count generalizing server log lost with
  | zero => exact ⟨log, lost, rfl, losses⟩
  | succ count ih =>
    obtain ⟨written, same, changed⟩ :=
      Alike.alike_step passes.inOrder_of_passes passes.follows_calls log
    obtain ⟨lost, later⟩ := changed.exists_losses losses
    rw [Server.steps, Server.steps, same]
    exact ih passes.passes_step later

/-! ## The load -/

/-- Faults do not change how many actions are left, because they add neither
calls nor tasks. -/
theorem load_withFaults (server : Server) (log : List Entry) :
    (server.withFaults faults log).load = server.load := by
  have queued : Server.queuedLoad server.workers.length ∘ Job.withFaults faults =
      Server.queuedLoad server.workers.length :=
    funext fun job => by cases job <;> rfl
  have duty : Server.dutyLoad server.workers.length (server.dispatcher.duty.withFaults faults) =
      Server.dutyLoad server.workers.length server.dispatcher.duty := by
    cases server.dispatcher.duty <;> rfl
  have staff : Server.workerLoad ∘ Worker.withFaults faults = Server.workerLoad := by
    funext worker
    simp only [Function.comp_apply, Server.workerLoad, Worker.withFaults]
    rcases worker.job with _ | _ | _ <;> rfl
  simp only [Server.load, Server.withFaults, Dispatcher.withFaults, List.length_map,
    List.map_map, length_withFaultsFrom, queued, staff, duty]

/-- Both servers come to rest at the same time, and still differ in faults
only. -/
theorem Scenario.Passes.settle_withFaults {scenario : Scenario} {server : Server}
    (passes : scenario.Passes server) {log : List Entry} {lost : List (Nat × Entry)}
    (losses : Losses (calls scenario.arrivals) faults server log lost) :
    ∃ written lost,
      (server.withFaults faults log).settle = server.settle.withFaults faults written ∧
      Losses (calls scenario.arrivals) faults server.settle written lost := by
  rw [Server.settle, load_withFaults]
  exact passes.steps_withFaults losses server.load

/-! ## Two runs -/

theorem Losses.losses_requestStop {server : Server} {log : List Entry} {lost : List (Nat × Entry)}
    (losses : Losses all faults server log lost) : Losses all faults server.requestStop log lost :=
  ⟨losses.kept, losses.added, losses.once, losses.exactly, losses.reported⟩

/-- Nothing is lost before a call has been accepted. -/
theorem Losses.losses_start (scenario : Scenario) :
    Losses all faults (Server.start scenario) (Server.start scenario).log [] where
  kept := List.Sublist.refl _
  added := by rw [List.map_nil, List.append_nil]
  once := List.nodup_nil
  exactly index := by
    constructor
    · nofun
    · rintro ⟨_, delivered⟩
      exact absurd rfl delivered
  reported := nofun

namespace Scenario

theorem start_withFaults (scenario : Scenario) (faults : Nat → Option String) :
    Server.start (scenario.withFaults faults) =
      (Server.start scenario).withFaults faults (Server.start scenario).log := by
  simp only [Server.start, withFaults, Server.note, Server.withFaults, List.map_replicate]
  rfl

/-- Both servers are told to stop when they differ in faults only, whenever that
is. -/
theorem exists_stopping (scenario : Scenario) (faults : Nat → Option String) :
    ∃ log lost,
      (scenario.withFaults faults).stopping = scenario.stopping.withFaults faults log ∧
      Losses (calls scenario.arrivals) faults scenario.stopping log lost := by
  have stopWith : (scenario.withFaults faults).stop = scenario.stop := rfl
  have losses : Losses (calls scenario.arrivals) faults (Server.start scenario) _ [] :=
    .losses_start scenario
  unfold stopping
  rw [stopWith, start_withFaults]
  cases stop : scenario.stop with
  | drained =>
    have passes : scenario.Passes (Server.start scenario) := .inr ⟨stop, 0, rfl⟩
    obtain ⟨log, lost, same, later⟩ := passes.settle_withFaults losses
    refine ⟨log, lost, ?_, later.losses_requestStop⟩
    simp only [same]
    rfl
  | immediate => exact ⟨_, [], rfl, losses.losses_requestStop⟩
  | never => exact ⟨_, [], rfl, losses⟩

/-- Replies that cannot be sent disturb nobody. Give any connections of a
scenario a fault; a fault that a connection has already stays. At the end of the
run, nothing has been delivered over them, and all other replies, the number of
times that each connection has been closed, the totals, the flags of the
workers, the length of the queue, and the calls on the listening socket are the
same; no thread has failed that would not have failed otherwise. The journal has
one entry more for each of these connections that would have been sent a reply,
which reports the loss, and the other entries are the same in the same order.

Proof: the two runs go in step. An action leads from two servers that differ in
faults only to two such servers again (`Alike.alike_step`), as no thread asks
whether a reply has arrived, and each action adds to the losses what it has lost
(`Change.exists_losses`). Both come to rest after as many actions, because their
load is the same. -/
theorem faults_disturb_nobody (scenario : Scenario) (faults : Nat → Option String) :
    let calm := scenario.run
    let troubled := (scenario.withFaults faults).run
    troubled.connections = calm.connections.mapIdx (fun index connection =>
      { connection with delivered := delivery connection.delivered (faults index) }) ∧
    troubled.totals = calm.totals ∧
    troubled.busyFlags = calm.busyFlags ∧
    troubled.queue.length = calm.queue.length ∧
    troubled.socketCalls = calm.socketCalls ∧
    troubled.failed = calm.failed ∧
    ∃ lost, Losses (calls scenario.arrivals) faults calm troubled.log lost := by
  intro calm troubled
  obtain ⟨log, _, same, losses⟩ := scenario.exists_stopping faults
  have passes : scenario.Passes scenario.stopping := .inl ⟨0, rfl⟩
  obtain ⟨written, lost, settled, account⟩ := passes.settle_withFaults losses
  have calmEnd : calm = scenario.stopping.settle := scenario.run_eq
  have differ : troubled = calm.withFaults faults written := by
    have troubledEnd : troubled = (scenario.withFaults faults).stopping.settle := run_eq _
    rw [calmEnd, troubledEnd, same, settled]
  have busy : troubled.busyFlags = calm.busyFlags := by
    rw [differ, Server.busyFlags, Server.withFaults, List.map_map]
    rfl
  have queued : troubled.queue.length = calm.queue.length := by
    rw [differ, Server.withFaults, List.length_map]
  have journal : troubled.log = written := by rw [differ, Server.withFaults]
  refine ⟨?_, ?_, busy, queued, ?_, ?_, lost, ?_⟩
  · rw [differ]
    rfl
  · rw [differ]
    rfl
  · rw [differ]
    rfl
  · rw [differ]
    rfl
  · rw [journal, calmEnd]
    exact account

end Scenario

end Reckon.Service
