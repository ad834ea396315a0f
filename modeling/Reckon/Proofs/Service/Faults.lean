import Reckon.Proofs.Service.Calls

/-!
# Connections that lose their replies

Give some connections a fault, so that no reply can be sent over them.
`Server.withFaults` is the server that differs in this from another one: the
calls still to come and the tasks carry the faults, nothing has been delivered
over the connections in question, and the journal is another one. Nothing else
is different.

An operation on the *troubled* server leads to the same as on the *calm* one,
again up to faults. Most operations write the same into both journals and
deliver nothing; `Silent` operations do not even write. Only a reply is
different: over a connection that has been given a fault nothing is delivered,
and one entry more is written. `Alike` says so of what becomes of the two
servers, and operation after operation keeps it.
-/

namespace Reckon.Service

open Service.Sequential (Call)

/-! ## Servers with faults -/

variable (faults : Nat → Option String)

/-- The task, with the fault of its connection. A fault that it has already
stays. -/
def Task.withFaults (task : Task) : Task :=
  { task with sendFault := task.sendFault.or (faults task.connection) }

def Job.withFaults : Job → Job
  | .task held => .task (held.withFaults faults)
  | .stop => .stop

def Duty.withFaults : Duty → Duty
  | .take => .take
  | .place task => .place (task.withFaults faults)
  | .dismiss next => .dismiss next

def Dispatcher.withFaults (dispatcher : Dispatcher) : Dispatcher :=
  { dispatcher with duty := dispatcher.duty.withFaults faults }

def Worker.withFaults (worker : Worker) : Worker :=
  { worker with job := worker.job.map (Job.withFaults faults) }

/-- The arrivals, with the faults of the connections that the calls will have,
from the given one on. Only calls are counted. -/
def withFaultsFrom (number : Nat) : List Arrival → List Arrival
  | [] => []
  | .pause wait :: later => .pause wait :: withFaultsFrom number later
  | .call wait incoming sendFault :: later =>
      .call wait incoming (sendFault.or (faults number)) :: withFaultsFrom (number + 1) later

/-- The connection, over which nothing has been delivered if it has a fault. -/
def Connection.withFault (fault : Option String) (connection : Connection) : Connection :=
  { connection with delivered := delivery connection.delivered fault }

/-- The server with faults of its connections, and with another journal. Nothing
that decides which thread runs or what it does next is different. -/
def Server.withFaults (log : List Entry) (server : Server) : Server :=
  { server with
    arrivals := withFaultsFrom faults server.connections.length server.arrivals
    connections := server.connections.mapIdx fun index => Connection.withFault (faults index)
    queue := server.queue.map (Job.withFaults faults)
    workers := server.workers.map (Worker.withFaults faults)
    dispatcher := server.dispatcher.withFaults faults
    log }

/-- The scenario, with the faults of the connections that its calls will
have. -/
def Scenario.withFaults (scenario : Scenario) : Scenario :=
  { scenario with arrivals := withFaultsFrom faults 0 scenario.arrivals }

/-- The text that has been delivered over a connection, if it has been
accepted. -/
def Server.deliveredTo (server : Server) (index : Nat) : String :=
  (server.connections[index]?.map fun connection => connection.delivered).getD ""

/-- The event of a reply that is lost. A rejection is reported in other words
than a result. -/
def lossEvent (request : Request) (reply fault : String) : Event :=
  if reply = Settings.rejection then .rejectionLost request fault else .replyLost request fault

variable {faults}

/-- A second fault has no effect where there is one, and the same effect where
there is none. -/
theorem delivery_or (reply : String) (first second : Option String) :
    delivery reply (first.or second) = delivery (delivery reply first) second := by
  cases first with
  | none => rfl
  | some fault => cases second <;> rfl

theorem delivery_empty (fault : Option String) : delivery "" fault = "" := by
  cases fault <;> rfl

theorem length_withFaultsFrom (number : Nat) (arrivals : List Arrival) :
    (withFaultsFrom faults number arrivals).length = arrivals.length := by
  induction arrivals generalizing number with
  | nil => rfl
  | cons arrival later ih =>
    cases arrival with
    | pause wait => exact congrArg (· + 1) (ih number)
    | call wait incoming sendFault => exact congrArg (· + 1) (ih (number + 1))

/-! ## What happens to both servers -/

/-- What becomes of a server, and of the journal of the one with faults. There
are two cases, and in the second of them a single reply makes the difference. -/
inductive Change (all : List Call) (faults : Nat → Option String) (server next : Server)
    (log : List Entry) : List Entry → Prop where
  /-- Both journals get the same entries, and nothing is delivered over a
  connection with a fault. -/
  | quiet (entries : List Entry) (written : next.log = server.log ++ entries)
      (silent : ∀ index, (faults index).isSome = true →
        next.deliveredTo index = server.deliveredTo index) :
      Change all faults server next log (log ++ entries)
  /-- Something is delivered for the first time over a connection with a fault,
  and an entry among the others reports the loss. -/
  | loss (before after : List Entry) (index : Nat) (fault : String) (request : Request)
      (entry : Entry) (asked : all[index]?.bind Call.request? = some request)
      (faulty : faults index = some fault)
      (written : next.log = server.log ++ (before ++ after))
      (fresh : server.deliveredTo index = "") (delivered : next.deliveredTo index ≠ "")
      (others : ∀ other, index ≠ other → next.deliveredTo other = server.deliveredTo other)
      (reported : entry.event = lossEvent request (next.deliveredTo index) fault) :
      Change all faults server next log (log ++ (before ++ entry :: after))

/-- `next` has become of a server and `troubled` of the one with faults. They
differ in faults only, and what has happened on the way is a change that
accounts for both journals. -/
def Alike (all : List Call) (faults : Nat → Option String) (server : Server) (log : List Entry)
    (next troubled : Server) : Prop :=
  ∃ written, troubled = next.withFaults faults written ∧ Change all faults server next log written

/-- The operations on a server and on the one with faults correspond, and they
neither write nor deliver anything. Such operations can be put together
freely. -/
structure Silent (faults : Nat → Option String) (calm troubled : Server → Server) : Prop where
  same : ∀ server log, troubled (server.withFaults faults log) = (calm server).withFaults faults log
  log : ∀ server, (calm server).log = server.log
  connections : ∀ server, (calm server).connections = server.connections

section Alike

variable {all : List Call} {server next troubled : Server} {log : List Entry}

theorem Change.change_of_same (journal : next.log = server.log)
    (delivered : ∀ index, next.deliveredTo index = server.deliveredTo index) :
    Change all faults server next log log := by
  have quiet : Change all faults server next log (log ++ []) :=
    .quiet [] (journal.trans (List.append_nil _).symm) fun index _ => delivered index
  rwa [List.append_nil] at quiet

theorem Change.congr {other : Server} {written : List Entry}
    (changed : Change all faults server next log written) (journal : other.log = next.log)
    (delivered : ∀ index, other.deliveredTo index = next.deliveredTo index) :
    Change all faults server other log written := by
  have same : other.deliveredTo = next.deliveredTo := funext delivered
  cases changed with
  | quiet entries written silent => exact .quiet entries (journal.trans written) (same ▸ silent)
  | loss before after index fault request entry asked faulty written fresh arrives others
      reported =>
    rw [← same] at arrives others reported
    exact .loss before after index fault request entry asked faulty (journal.trans written) fresh
      arrives others reported

theorem Alike.refl (server : Server) (log : List Entry) :
    Alike all faults server log server (server.withFaults faults log) :=
  ⟨log, rfl, .change_of_same rfl fun _ => rfl⟩

/-- A silent operation follows. The change on the way is not affected by it. -/
theorem Alike.alike_of_silent (alike : Alike all faults server log next troubled)
    {operation other : Server → Server} (silent : Silent faults operation other) :
    Alike all faults server log (operation next) (other troubled) := by
  obtain ⟨written, rfl, changed⟩ := alike
  refine ⟨written, silent.same next written, changed.congr (silent.log next) fun index => ?_⟩
  rw [Server.deliveredTo, silent.connections]
  rfl

/-- An event follows, and is written into both journals. -/
theorem Alike.alike_note (alike : Alike all faults server log next troubled) (event : Event) :
    Alike all faults server log (next.note event) (troubled.note event) := by
  obtain ⟨written, rfl, changed⟩ := alike
  let entry : Entry := { elapsed := next.elapsed, event }
  refine ⟨written ++ [entry], rfl, ?_⟩
  cases changed with
  | quiet entries same silent =>
    rw [List.append_assoc]
    refine .quiet (entries ++ [entry]) ?_ silent
    rw [Server.note, same, List.append_assoc]
  | loss before after index fault request lost asked faulty same fresh arrives others reported =>
    rw [List.append_assoc, List.append_assoc, List.cons_append]
    refine .loss before (after ++ [entry]) index fault request lost asked faulty ?_ fresh arrives
      others reported
    rw [Server.note, same, List.append_assoc, List.append_assoc]

end Alike

/-! ## Silent operations -/

namespace Silent

/-- An operation that depends on a condition, if faults do not show in the
condition. -/
theorem silent_ite {calm troubled : Server → Server} {condition other : Server → Prop}
    [DecidablePred condition] [DecidablePred other] (silent : Silent faults calm troubled)
    (agree : ∀ server log, other (server.withFaults faults log) ↔ condition server) :
    Silent faults (fun server => if condition server then calm server else server)
      (fun server => if other server then troubled server else server) where
  same server log := by
    by_cases holds : condition server
    · rw [if_pos holds, if_pos ((agree server log).mpr holds), silent.same]
    · rw [if_neg holds, if_neg (mt (agree server log).mp holds)]
  log server := by
    split
    · exact silent.log server
    · rfl
  connections server := by
    split
    · exact silent.connections server
    · rfl

/-- Most operations on threads, phases and jobs are silent by definition. -/
theorem silent_leave : Silent faults Server.leave Server.leave :=
  ⟨fun _ _ => rfl, fun _ => rfl, fun _ => rfl⟩

theorem silent_fail (thread : Thread) : Silent faults (·.fail thread) (·.fail thread) :=
  ⟨fun _ _ => rfl, fun _ => rfl, fun _ => rfl⟩

theorem silent_acceptor (phase : Phase) :
    Silent faults (fun server => { server with acceptor := phase })
      (fun server => { server with acceptor := phase }) :=
  ⟨fun _ _ => rfl, fun _ => rfl, fun _ => rfl⟩

theorem silent_setDispatcherPhase (phase : Phase) :
    Silent faults (·.setDispatcherPhase phase) (·.setDispatcherPhase phase) :=
  ⟨fun _ _ => rfl, fun _ => rfl, fun _ => rfl⟩

theorem silent_setDuty (duty : Duty) :
    Silent faults (·.setDuty duty) (·.setDuty (duty.withFaults faults)) :=
  ⟨fun _ _ => rfl, fun _ => rfl, fun _ => rfl⟩

theorem silent_queue (jobs : List Job) :
    Silent faults (fun server => { server with queue := jobs })
      (fun server => { server with queue := jobs.map (Job.withFaults faults) }) :=
  ⟨fun _ _ => rfl, fun _ => rfl, fun _ => rfl⟩

theorem silent_closer (closer : Closer) :
    Silent faults (fun server => { server with closer }) (fun server => { server with closer }) :=
  ⟨fun _ _ => rfl, fun _ => rfl, fun _ => rfl⟩

/-- A worker changes, in the same way whether or not its task has a fault. -/
theorem silent_modifyWorker (index : Nat) {change other : Worker → Worker}
    (agree : ∀ worker, other (worker.withFaults faults) = (change worker).withFaults faults) :
    Silent faults (·.modifyWorker index change) (·.modifyWorker index other) where
  same server log := by
    have workers : (server.workers.map (Worker.withFaults faults)).modify index other =
        (server.workers.modify index change).map (Worker.withFaults faults) := by
      apply List.ext_getElem?
      intro position
      simp only [List.getElem?_modify, List.getElem?_map, Option.map_eq_map, Option.map_map]
      refine congrArg (Option.map · _) (funext fun worker => ?_)
      by_cases here : index = position
      · simp only [Function.comp_apply, if_pos here, agree]
      · simp only [Function.comp_apply, if_neg here]
    simp only [Server.modifyWorker, Server.withFaults, workers]
  log _ := rfl
  connections _ := rfl

theorem silent_wake (thread : Thread) :
    Silent faults (fun server => { server with ready := server.ready ++ [thread] })
      (fun server => { server with ready := server.ready ++ [thread] }) :=
  ⟨fun _ _ => rfl, fun _ => rfl, fun _ => rfl⟩

/-- One operation after another. The operations of the threads are put together
in this way from those above. -/
theorem silent_comp {first second other third : Server → Server}
    (before : Silent faults first second) (after : Silent faults other third) :
    Silent faults (fun server => other (first server)) (fun server => third (second server)) where
  same server log := by rw [before.same, after.same]
  log server := (after.log _).trans (before.log server)
  connections server := (after.connections _).trans (before.connections server)

theorem silent_assign (index : Nat) (job : Job) :
    Silent faults (·.assign index job) (·.assign index (job.withFaults faults)) := by
  have given : Silent faults
      (·.modifyWorker index fun worker => { worker with job := some job, busy := true })
      (·.modifyWorker index fun worker =>
        { worker with job := some (job.withFaults faults), busy := true }) :=
    silent_modifyWorker index fun _ => rfl
  have woken : Silent faults
      (·.modifyWorker index fun worker => { worker with phase := .ready })
      (·.modifyWorker index fun worker => { worker with phase := .ready }) :=
    silent_modifyWorker index fun _ => rfl
  have awaits (server : Server) (log : List Entry) :
      (server.withFaults faults log).workers[index]?.any (·.phase = .waiting) =
        server.workers[index]?.any (·.phase = .waiting) := by
    rw [Server.withFaults, List.getElem?_map]
    cases server.workers[index]? <;> rfl
  refine ⟨fun server log => ?_, fun server => ?_, fun server => ?_⟩
  · unfold Server.assign
    simp only [awaits, given.same]
    split
    · simp only [woken.same]
      rfl
    · rfl
  · unfold Server.assign
    simp only
    split <;> rfl
  · unfold Server.assign
    simp only
    split <;> rfl

theorem silent_wakeDispatcher : Silent faults Server.wakeDispatcher Server.wakeDispatcher :=
  ⟨fun _ _ => rfl, fun _ => rfl, fun _ => rfl⟩

theorem silent_wakeForJob : Silent faults Server.wakeForJob Server.wakeForJob := by
  refine silent_wakeDispatcher.silent_ite fun server log => ?_
  simp only [Server.withFaults, Dispatcher.withFaults, Dispatcher.mk.injEq]
  obtain ⟨phase, duty⟩ := server.dispatcher
  cases duty <;> simp [Duty.withFaults]

theorem silent_wakeForWorker : Silent faults Server.wakeForWorker Server.wakeForWorker := by
  refine silent_wakeDispatcher.silent_ite fun server log => ?_
  simp only [Server.withFaults, Dispatcher.withFaults]
  cases server.dispatcher.duty <;> simp [Duty.withFaults]

theorem silent_wakeForRoom : Silent faults Server.wakeForRoom Server.wakeForRoom :=
  silent_ite ((silent_closer .ordering).silent_comp (silent_wake .closer)) fun _ _ => Iff.rfl

theorem silent_wakeAcceptor : Silent faults Server.wakeAcceptor Server.wakeAcceptor :=
  silent_ite ((silent_acceptor .ready).silent_comp (silent_wake .acceptor)) fun _ _ => Iff.rfl

theorem silent_stopListening : Silent faults Server.stopListening Server.stopListening := by
  have silenced : Silent faults (fun server => { server with listening := false })
      (fun server => { server with listening := false }) :=
    ⟨fun _ _ => rfl, fun _ => rfl, fun _ => rfl⟩
  exact silenced.silent_comp silent_wakeAcceptor

end Silent

/-! ## The threads -/

section Threads

variable {all : List Call} {server next troubled : Server} {log : List Entry}

/-- The same worker is found idle, since faults do not change the flags. -/
theorem Alike.alike_idleWorker? (alike : Alike all faults server log next troubled) :
    troubled.idleWorker? = next.idleWorker? := by
  obtain ⟨written, rfl, _⟩ := alike
  simp only [Server.idleWorker?, Server.withFaults, List.findIdx?_map]
  rfl

theorem Alike.alike_place (alike : Alike all faults server log next troubled) (index : Nat)
    (task : Task) :
    Alike all faults server log (next.place index task)
      (troubled.place index (task.withFaults faults)) :=
  ((alike.alike_of_silent (.silent_assign index (.task task))).alike_note _).alike_of_silent
    (.silent_setDuty .take)

/-- The dispatcher acts. It never looks at the fault of a task, so each of its
duties is a silent operation, apart from the event that it notes. -/
theorem Alike.alike_dispatch (server : Server) (log : List Entry) :
    Alike all faults server log server.dispatch (server.withFaults faults log).dispatch := by
  have start : Alike all faults server log server (server.withFaults faults log) := .refl server log
  have dutyWith : (server.withFaults faults log).dispatcher.duty =
      server.dispatcher.duty.withFaults faults := rfl
  have queueWith : (server.withFaults faults log).queue =
      server.queue.map (Job.withFaults faults) := rfl
  have workersWith : (server.withFaults faults log).workers =
      server.workers.map (Worker.withFaults faults) := rfl
  unfold Server.dispatch
  cases duty : server.dispatcher.duty with
  | take =>
    rw [dutyWith, duty, queueWith]
    cases queue : server.queue with
    | nil =>
      exact (start.alike_of_silent (.silent_setDispatcherPhase .waiting)).alike_of_silent
        .silent_leave
    | cons job later =>
      have taken :=
        (start.alike_of_silent (.silent_queue later)).alike_of_silent .silent_wakeForRoom
      cases job with
      | stop => exact taken.alike_of_silent (.silent_setDuty (.dismiss 0))
      | task task =>
        have noted := taken.alike_note (.taken task.request)
        have idle := noted.alike_idleWorker?
        simp only [List.map_cons, Job.withFaults, Duty.withFaults, Task.withFaults] at idle ⊢
        rw [idle]
        split
        · exact noted.alike_place _ task
        · exact (((noted.alike_note .allBusy).alike_of_silent
            (.silent_setDuty (.place task))).alike_of_silent
            (.silent_setDispatcherPhase .waiting)).alike_of_silent .silent_leave
  | place task =>
    rw [dutyWith, duty]
    simp only [Duty.withFaults, start.alike_idleWorker?]
    split
    · exact start.alike_place _ task
    · exact (start.alike_of_silent (.silent_setDispatcherPhase .waiting)).alike_of_silent
        .silent_leave
  | dismiss position =>
    rw [dutyWith, duty]
    simp only [Duty.withFaults, workersWith, List.getElem?_map]
    cases server.workers[position]? with
    | none =>
      exact ((start.alike_note .dispatcherStopped).alike_of_silent
        (.silent_setDispatcherPhase .ended)).alike_of_silent .silent_leave
    | some worker =>
      have flagged : (worker.withFaults faults).busy = worker.busy := rfl
      simp only [Option.map_some, flagged]
      split
      · exact (start.alike_of_silent (.silent_setDispatcherPhase .waiting)).alike_of_silent
          .silent_leave
      · exact (start.alike_of_silent (.silent_assign position .stop)).alike_of_silent
          (.silent_setDuty (.dismiss (position + 1)))

theorem hasRoom_withFaults (server : Server) (log : List Entry) :
    (server.withFaults faults log).hasRoom = server.hasRoom := by
  simp only [Server.hasRoom, Server.withFaults, List.length_map]

/-- The closer acts, silently in every state. -/
theorem Alike.alike_shut (server : Server) (log : List Entry) :
    Alike all faults server log server.shut (server.withFaults faults log).shut := by
  have start : Alike all faults server log server (server.withFaults faults log) := .refl server log
  have closerWith : (server.withFaults faults log).closer = server.closer := rfl
  by_cases closing : server.closer = .closing
  · rw [Server.shut_of_closing closing, Server.shut_of_closing (closerWith.trans closing)]
    exact (start.alike_of_silent .silent_stopListening).alike_of_silent (.silent_closer .ordering)
  by_cases ordering : server.closer = .ordering
  · rw [Server.shut_of_ordering ordering, Server.shut_of_ordering (closerWith.trans ordering),
      hasRoom_withFaults]
    split
    · have queueWith : (server.withFaults faults log).queue ++ [Job.stop] =
          (server.queue ++ [Job.stop]).map (Job.withFaults faults) := by
        rw [List.map_append]
        rfl
      rw [queueWith]
      exact (((start.alike_of_silent (.silent_queue (server.queue ++ [.stop]))).alike_of_silent
        .silent_wakeForJob).alike_of_silent (.silent_closer .ended)).alike_of_silent .silent_leave
    · exact (start.alike_of_silent (.silent_closer .waiting)).alike_of_silent .silent_leave
  · rw [Server.shut_of_ne closing ordering,
      @Server.shut_of_ne (server.withFaults faults log) closing ordering]
    exact start.alike_of_silent .silent_leave

end Threads

/-! ## Replies -/

section Replies

variable {all : List Call} {server base : Server} {log : List Entry}

/-- A connection is closed in both servers, with nothing delivered if it has a
fault. -/
theorem close_withFaults (faults : Nat → Option String) (server : Server) (log : List Entry)
    (index : Nat) (delivered : String) :
    (server.withFaults faults log).close index (delivery delivered (faults index)) =
      (server.close index delivered).withFaults faults log := by
  have connections :
      ((server.connections.mapIdx fun index => Connection.withFault (faults index)).modify index
        fun accepted => { accepted with
          delivered := delivery delivered (faults index), closed := accepted.closed + 1 }) =
        (server.connections.modify index fun accepted =>
          { accepted with delivered, closed := accepted.closed + 1 }).mapIdx fun index =>
            Connection.withFault (faults index) := by
    apply List.ext_getElem?
    intro position
    simp only [List.getElem?_modify, List.getElem?_mapIdx, Option.map_eq_map, Option.map_map]
    refine congrArg (Option.map · _) (funext fun connection => ?_)
    by_cases here : index = position
    · subst here
      simp only [Function.comp_apply, if_true, Connection.withFault]
    · simp only [Function.comp_apply, if_neg here]
  simp only [Server.close, Server.withFaults, connections, List.length_modify]

theorem deliveredTo_close (server : Server) {index : Nat}
    (accepted : index < server.connections.length) (delivered : String) (other : Nat) :
    (server.close index delivered).deliveredTo other =
      if index = other then delivered else server.deliveredTo other := by
  simp only [Server.deliveredTo, Server.close, List.getElem?_modify]
  by_cases here : index = other
  · subst here
    simp [accepted]
  · simp [here]

/-- A connection over which nothing has been delivered is closed without a
reply. Then a fault of the connection makes no difference. -/
theorem Alike.alike_close {next troubled : Server}
    (alike : Alike all faults server log next troubled) {index : Nat}
    (accepted : index < next.connections.length) (fresh : next.deliveredTo index = "") :
    Alike all faults server log (next.close index "") (troubled.close index "") := by
  obtain ⟨written, rfl, changed⟩ := alike
  have closed := close_withFaults faults next written index ""
  rw [delivery_empty] at closed
  refine ⟨written, closed, changed.congr rfl fun other => ?_⟩
  rw [deliveredTo_close next accepted]
  split
  · rename_i here
    exact here ▸ fresh.symm
  · rfl

/-- A reply in both servers is the same, or it is lost because of a fault. This
is the only operation on which the two servers part: in the second case the
troubled one delivers nothing and notes the loss. -/
theorem Alike.alike_respond (written : base.log = server.log)
    (same : ∀ index, base.deliveredTo index = server.deliveredTo index) {index : Nat}
    (accepted : index < base.connections.length) (fresh : server.deliveredTo index = "")
    {reply : String} (present : reply ≠ "") {request : Request}
    (asked : all[index]?.bind Call.request? = some request) (before after : List Event)
    {lost : String → Event} (reported : ∀ fault, lost fault = lossEvent request reply fault)
    (sendFault : Option String) :
    Alike all faults server log (base.respond index reply before after lost sendFault)
      ((base.withFaults faults log).respond index reply before after lost
        (sendFault.or (faults index))) := by
  let entry (event : Event) : Entry := { elapsed := base.elapsed, event }
  have troubled (events : List Event) :
      (base.withFaults faults log).respond index reply before after lost
          (sendFault.or (faults index)) =
        ((base.noteAll events).close index (delivery reply sendFault)).withFaults faults
          (log ++ (before ++ lossEvents lost (sendFault.or (faults index)) ++
          after).map entry) := by
    rw [Server.respond, delivery_or]
    exact close_withFaults faults (base.noteAll events) _ index _
  have journal : (base.respond index reply before after lost sendFault).log =
      server.log ++ (before ++ lossEvents lost sendFault ++ after).map entry := by
    rw [← written]
    rfl
  have delivered (other : Nat) :
      (base.respond index reply before after lost sendFault).deliveredTo other =
        if index = other then delivery reply sendFault else server.deliveredTo other := by
    rw [← same other]
    exact deliveredTo_close base accepted _ other
  refine ⟨_, troubled (before ++ lossEvents lost sendFault ++ after), ?_⟩
  cases sendFault with
  | some own =>
    refine .quiet _ journal fun other _ => ?_
    rw [delivered]
    split
    · rename_i here
      exact here ▸ fresh.symm
    · rfl
  | none =>
    cases fault : faults index with
    | none =>
      refine .quiet _ journal fun other faulty => ?_
      rw [delivered, if_neg]
      rintro rfl
      rw [fault] at faulty
      cases faulty
    | some words =>
      have arrives :
          (base.respond index reply before after lost none).deliveredTo index = reply := by
        rw [delivered, if_pos rfl]
        rfl
      have entries : (before ++ lossEvents lost (some words) ++ after).map entry =
          before.map entry ++ entry (lost words) :: after.map entry := by
        simp [lossEvents]
      rw [Option.none_or, entries]
      refine .loss _ _ index words request (entry (lost words)) asked fault ?_ fresh ?_ ?_ ?_
      · rw [journal]
        simp [lossEvents]
      · rw [arrives]
        exact present
      · intro other different
        rw [delivered, if_neg different]
      · rw [arrives]
        exact reported words

end Replies

end Reckon.Service
