import Mathlib.Logic.Relation
import Reckon.Proofs.Service.Move
import Reckon.Proofs.Service.Schedule

/-!
# Sound servers

A server is sound if no thread waits for something that is already there, and
the order to stop is where it should be. Precisely: the queue of ready threads
is in order; a worker with a task is running or about to; a dispatcher that
waits for a job finds the queue empty, one that waits for a worker finds all of
them with jobs, and one that waits for the worker to be dismissed next finds
that worker with a job; a closer that waits for room finds the queue full. The
order to stop stands behind all tasks in the queue from the moment the closer
has ended until the dispatcher takes it, and from then on with the workers that
have been dismissed, which are the first ones.

Every move keeps a server sound, and so does the start of the closer. No wake-up
is lost, then: what is left undone when no thread can run is left undone for a
reason that soundness rules out.
-/

namespace Reckon.Service

/-- A worker without a job runs or waits, one with a task runs, and one that was
told to stop runs or has ended. -/
def Worker.Employed (worker : Worker) : Prop :=
  match worker.job with
  | none => worker.phase = .ready ∨ worker.phase = .waiting
  | some (.task _) => worker.phase = .ready
  | some .stop => worker.phase = .ready ∨ worker.phase = .ended

/-- The jobs of the workers, each in the place of its worker. -/
def Server.jobs (server : Server) : List (Option Job) :=
  server.workers.map (·.job)

/-- No thread waits in vain, and the order to stop is where it should be. This
is the inductive invariant of the server: it is strong enough to be kept by
every move, and it names what each waiting thread lacks. -/
structure Sound (server : Server) : Prop where
  /-- The queue of ready threads holds what can run. -/
  schedule : Schedule server.ready server.workers server.acceptor server.dispatcher.phase
    server.closer
  /-- Every worker is where its job wants it. -/
  employed : ∀ worker ∈ server.workers, worker.Employed
  /-- A worker is busy if and only if it has a job. -/
  flagged : ∀ worker ∈ server.workers, worker.busy = worker.job.isSome
  /-- A dispatcher that waits for a job has none to take. -/
  starved : server.dispatcher.phase = .waiting → server.dispatcher.duty = .take → server.queue = []
  /-- A dispatcher that waits for a worker has no idle one. -/
  stalled : server.dispatcher.phase = .waiting → ∀ task, server.dispatcher.duty = .place task →
    none ∉ server.jobs
  /-- A dispatcher that waits for the worker to be dismissed next waits for a
  worker with a job. -/
  lingering : server.dispatcher.phase = .waiting → ∀ next, server.dispatcher.duty = .dismiss next →
    ∃ job, server.jobs[next]? = some (some job)
  /-- A dispatcher that has ended has dismissed every worker. -/
  concluded : server.dispatcher.phase = .ended →
    ∃ next, server.dispatcher.duty = .dismiss next ∧ server.workers.length ≤ next
  /-- The dispatcher is never put aside. -/
  present : server.dispatcher.phase ≠ .aside
  /-- Until the order to stop is taken, it stands at the end of the queue if it
  has been given. -/
  queued : (∀ next, server.dispatcher.duty ≠ .dismiss next) →
    some .stop ∉ server.jobs ∧
      ∃ tasks : List Task,
        server.queue = tasks.map .task ++ if server.closer = .ended then [.stop] else []
  /-- Once it is taken, the queue is empty and the workers dismissed so far have
  the order. -/
  dismissed : ∀ next, server.dispatcher.duty = .dismiss next →
    server.closer = .ended ∧ server.queue = [] ∧ next ≤ server.workers.length ∧
      ∀ index < server.workers.length, server.jobs[index]? = some (some .stop) ↔ index < next
  /-- The server listens until the closer has seen to it. -/
  listens : server.listening = true ↔ server.closer = .absent ∨ server.closer = .closing
  /-- An acceptor that waits for a connection has none to accept. -/
  awaits : server.acceptor = .waiting → server.listening = true ∧ server.arrivals = []
  /-- The acceptor ends only when the server does not listen. -/
  retired : server.acceptor = .ended → server.listening = false
  /-- A closer that waits for room has none. -/
  held : server.closer = .waiting → server.hasRoom = false

namespace Sound

variable {server : Server} {later : List Thread}

/-! ## The acceptor -/

theorem acceptor_ready (sound : Sound server) (running : server.ready = .acceptor :: later) :
    server.acceptor = .ready :=
  (sound.schedule.runnable .acceptor).mp (running ▸ List.mem_cons_self)

/-- The acceptor stops running: it waits with nothing to accept, or is put
aside, or ends because the server does not listen. -/
theorem acceptor_leaves (sound : Sound server) (running : server.ready = .acceptor :: later)
    (phase : Phase) (stopped : phase ≠ .ready) (arrivals : List Arrival) (elapsed : Int)
    (waits : phase = .waiting → server.listening = true ∧ arrivals = [])
    (ends : phase = .ended → server.listening = false) :
    Sound { server with arrivals, elapsed, acceptor := phase, ready := later } :=
  { sound with
    schedule := (running ▸ sound.schedule).acceptor_leaves stopped
    awaits := waits
    retired := ends }

/-- The acceptor turns to the next arrival. It is not waiting, so nothing was
promised about what there is to accept. -/
theorem acceptor_runs (sound : Sound server) (running : server.ready = .acceptor :: later)
    (arrivals : List Arrival) (elapsed : Int) (connections : List Connection) (log : List Entry) :
    Sound { server with arrivals, elapsed, connections, log } :=
  { sound with
    awaits := fun waits => by
      have runs : server.acceptor = .waiting := waits
      rw [sound.acceptor_ready running] at runs
      cases runs }

/-- A task enters the queue while the server listens and the dispatcher does not
wait for it. As long as the server listens, no order to stop is in the queue, so
the task does not come to stand behind it. -/
theorem task_enters_queue (sound : Sound server) (listening : server.listening = true)
    (notified : ¬(server.dispatcher.phase = .waiting ∧ server.dispatcher.duty = .take))
    (task : Task) : Sound { server with queue := server.queue ++ [.task task] } := by
  have open_ := sound.listens.mp listening
  have unended : server.closer ≠ .ended := by
    rintro ended
    simp [ended] at open_
  exact
    { sound with
      starved := fun waiting free => absurd ⟨waiting, free⟩ notified
      queued := fun duty => by
        obtain ⟨none, tasks, queue⟩ := sound.queued duty
        rw [if_neg unended, List.append_nil] at queue
        refine ⟨none, tasks ++ [task], ?_⟩
        simp [queue, unended]
      dismissed := fun next duty => absurd (sound.dismissed next duty).1 unended
      held := fun waiting => by
        have waits : server.closer = .waiting := waiting
        simp [waits] at open_ }

/-! ## The dispatcher -/

theorem dispatcher_ready (sound : Sound server) (running : server.ready = .dispatcher :: later) :
    server.dispatcher.phase = .ready :=
  (sound.schedule.runnable .dispatcher).mp (running ▸ List.mem_cons_self)

/-- The dispatcher is woken. All that was promised about a waiting one holds no
longer, and need not. -/
theorem dispatcher_is_woken (sound : Sound server) (waiting : server.dispatcher.phase = .waiting) :
    Sound server.wakeDispatcher :=
  { sound with
    schedule := sound.schedule.dispatcher_wakes (by simp [waiting])
    starved := fun waits => nomatch waits
    stalled := fun waits => nomatch waits
    lingering := fun waits => nomatch waits
    concluded := fun ends => nomatch ends
    present := nofun }

/-- The dispatcher stops running because what it needs is not there. What that
is depends on its duty. -/
theorem dispatcher_waits (sound : Sound server) (running : server.ready = .dispatcher :: later)
    (starved : server.dispatcher.duty = .take → server.queue = [])
    (stalled : ∀ task, server.dispatcher.duty = .place task → none ∉ server.jobs)
    (lingering : ∀ next, server.dispatcher.duty = .dismiss next →
      ∃ job, server.jobs[next]? = some (some job)) :
    Sound
      { server with dispatcher := { server.dispatcher with phase := .waiting }, ready := later } :=
  { sound with
    schedule := (running ▸ sound.schedule).dispatcher_leaves nofun
    starved := fun _ => starved
    stalled := fun _ => stalled
    lingering := fun _ => lingering
    concluded := fun ends => nomatch ends
    present := nofun }

/-- The dispatcher, still running, goes on with another duty. -/
theorem dispatcher_runs (sound : Sound server) (running : server.ready = .dispatcher :: later)
    (queue : List Job) (duty : Duty) (notified : server.closer ≠ .waiting)
    (queued : (∀ next, duty ≠ .dismiss next) →
      some .stop ∉ server.jobs ∧
        ∃ tasks : List Task,
          queue = tasks.map .task ++ if server.closer = .ended then [.stop] else [])
    (dismissed : ∀ next, duty = .dismiss next →
      server.closer = .ended ∧ queue = [] ∧ next ≤ server.workers.length ∧
        ∀ index < server.workers.length, server.jobs[index]? = some (some .stop) ↔ index < next) :
    Sound { server with queue, dispatcher := { server.dispatcher with duty } } := by
  have ready := sound.dispatcher_ready running
  exact
    { sound with
      starved := fun waits => nomatch ready.symm.trans waits
      stalled := fun waits => nomatch ready.symm.trans waits
      lingering := fun waits => nomatch ready.symm.trans waits
      concluded := fun ends => nomatch ready.symm.trans ends
      queued := queued
      dismissed := dismissed
      held := fun waiting => absurd waiting notified }

theorem jobs_set_same {workers : List Worker} {index : Nat} {worker : Worker}
    (found : workers[index]? = some worker) (changed : Worker) (same : changed.job = worker.job) :
    (workers.set index changed).map (·.job) = workers.map (·.job) := by
  apply List.ext_getElem?
  intro position
  rw [List.map_set, List.getElem?_set]
  by_cases here : index = position
  · subst here
    obtain ⟨bound, rfl⟩ := List.getElem?_eq_some_iff.mp found
    simp [bound, same]
  · simp [here]

theorem employed_set (sound : Sound server) {index : Nat} {changed : Worker}
    (employed : changed.Employed) :
    ∀ worker ∈ server.workers.set index changed, worker.Employed := by
  intro worker member
  rcases List.mem_or_eq_of_mem_set member with before | rfl
  · exact sound.employed worker before
  · exact employed

theorem flagged_set (sound : Sound server) {index : Nat} {changed : Worker}
    (flagged : changed.busy = changed.job.isSome) :
    ∀ worker ∈ server.workers.set index changed, worker.busy = worker.job.isSome := by
  intro worker member
  rcases List.mem_or_eq_of_mem_set member with before | rfl
  · exact sound.flagged worker before
  · exact flagged

theorem job_of_idle (sound : Sound server) {index : Nat} {worker : Worker}
    (found : server.workers[index]? = some worker) (idle : worker.busy = false) :
    worker.job = none := by
  have flagged := sound.flagged worker (List.mem_of_getElem? found)
  rw [idle] at flagged
  exact Option.isNone_iff_eq_none.mp (Option.isSome_eq_false_iff.mp flagged.symm)

theorem jobs_of_busy (sound : Sound server) (busy : ∀ worker ∈ server.workers, worker.busy = true) :
    ∀ worker ∈ server.workers, worker.job ≠ none := by
  intro worker member
  have flagged := sound.flagged worker member
  rw [busy worker member] at flagged
  exact Option.isSome_iff_ne_none.mp flagged.symm

/-- An idle worker is given the task that the dispatcher holds. The task is no
order to stop, so that one stays where it was. -/
theorem worker_is_given_task (sound : Sound server) (running : server.ready = .dispatcher :: later)
    {task : Task} (holds : server.dispatcher.duty = .place task) {index : Nat} {worker : Worker}
    (found : server.workers[index]? = some worker) (asleep : worker.phase ≠ .ready) :
    Sound
      { server with
        workers := server.workers.set index { phase := .ready, job := some (.task task) }
        ready := server.ready ++ [.worker index]
        dispatcher := { server.dispatcher with duty := .take } } := by
  have ready := sound.dispatcher_ready running
  exact
    { sound with
      schedule := sound.schedule.worker_wakes found asleep (.task task)
      employed := sound.employed_set rfl
      flagged := sound.flagged_set rfl
      starved := fun waits => nomatch ready.symm.trans waits
      stalled := fun waits => nomatch ready.symm.trans waits
      lingering := fun waits => nomatch ready.symm.trans waits
      concluded := fun ends => nomatch ready.symm.trans ends
      queued := fun _ => by
        obtain ⟨none, tasks, queue⟩ := sound.queued (by simp [holds])
        refine ⟨?_, tasks, queue⟩
        simp only [Server.jobs, List.map_set]
        intro member
        rcases List.mem_or_eq_of_mem_set member with before | same
        · exact none before
        · cases same
      dismissed := fun _ duty => nomatch duty }

/-- The idle worker to be dismissed next is told to stop. So the workers with
this order are still the first ones. -/
theorem worker_is_dismissed (sound : Sound server) (running : server.ready = .dispatcher :: later)
    {next : Nat} (duty : server.dispatcher.duty = .dismiss next) {worker : Worker}
    (found : server.workers[next]? = some worker) (asleep : worker.phase ≠ .ready) :
    Sound
      { server with
        workers := server.workers.set next { phase := .ready, job := some .stop }
        ready := server.ready ++ [.worker next]
        dispatcher := { server.dispatcher with duty := .dismiss (next + 1) } } := by
  have ready := sound.dispatcher_ready running
  obtain ⟨ended, empty, _, given⟩ := sound.dismissed next duty
  exact
    { sound with
      schedule := sound.schedule.worker_wakes found asleep .stop
      employed := sound.employed_set (.inl rfl)
      flagged := sound.flagged_set rfl
      starved := fun waits => nomatch ready.symm.trans waits
      stalled := fun waits => nomatch ready.symm.trans waits
      lingering := fun waits => nomatch ready.symm.trans waits
      concluded := fun ends => nomatch ready.symm.trans ends
      queued := fun other => absurd rfl (other (next + 1))
      dismissed := by
        rintro _ ⟨⟩
        have inside : next < server.workers.length := (List.getElem?_eq_some_iff.mp found).1
        refine ⟨ended, empty, Nat.succ_le_of_lt (by simpa only [List.length_set] using inside), ?_⟩
        intro index bound
        rw [List.length_set] at bound
        have before := given index bound
        simp only [Server.jobs, List.map_set] at before ⊢
        by_cases here : next = index
        · subst here
          simp [bound]
        · rw [List.getElem?_set_ne here, before]
          omega }

theorem dispatcher_ends (sound : Sound server) (running : server.ready = .dispatcher :: later)
    {next : Nat} (duty : server.dispatcher.duty = .dismiss next)
    (all : server.workers.length ≤ next) :
    Sound
      { server with dispatcher := { server.dispatcher with phase := .ended }, ready := later } :=
  { sound with
    schedule := (running ▸ sound.schedule).dispatcher_leaves nofun
    starved := fun waits => nomatch waits
    stalled := fun waits => nomatch waits
    lingering := fun waits => nomatch waits
    concluded := fun _ => ⟨next, duty, all⟩
    present := nofun }

/-! ## The workers -/

/-- A worker stops running and keeps its job, or the lack of one. -/
theorem worker_leaves (sound : Sound server) {index : Nat}
    (running : server.ready = .worker index :: later) {worker : Worker}
    (found : server.workers[index]? = some worker) {phase : Phase}
    (stopped : phase ≠ .ready) (employed : { worker with phase : Worker }.Employed) :
    Sound
      { server with
        workers := server.workers.set index { worker with phase }
        ready := later } := by
  have same := jobs_set_same found { worker with phase } rfl
  exact
    { sound with
      schedule := (running ▸ sound.schedule).worker_leaves found stopped
      employed := sound.employed_set employed
      flagged := sound.flagged_set (sound.flagged worker (List.mem_of_getElem? found))
      stalled := by simpa only [Server.jobs, same] using sound.stalled
      lingering := by simpa only [Server.jobs, same] using sound.lingering
      concluded := by simpa only [List.length_set] using sound.concluded
      queued := by simpa only [Server.jobs, same] using sound.queued
      dismissed := by simpa only [Server.jobs, same, List.length_set] using sound.dismissed }

/-- A worker has processed its task, and nobody waits for that. A worker with a
task was not among those dismissed, so the lack of a job changes nothing for
them. -/
theorem worker_is_freed (sound : Sound server) {index : Nat}
    (running : server.ready = .worker index :: later) {worker : Worker} {task : Task}
    (found : server.workers[index]? = some worker) (given : worker.job = some (.task task))
    (notified : ¬(server.dispatcher.phase = .waiting ∧ server.dispatcher.duty ≠ .take)) :
    Sound { server with workers := server.workers.set index worker.free } := by
  have front := sound.schedule
  rw [running] at front
  have placed : server.jobs[index]? = some (some (.task task)) := by
    simp [Server.jobs, found, given]
  have ready : worker.phase = .ready := by
    have employed := sound.employed worker (List.mem_of_getElem? found)
    simpa [Worker.Employed, given] using employed
  exact
    { sound with
      schedule := by
        rw [running]
        exact front.worker_is_freed found
      employed := sound.employed_set (.inl ready)
      flagged := sound.flagged_set rfl
      stalled := fun waiting task duty =>
        absurd ⟨waiting, fun free => nomatch free.symm.trans duty⟩ notified
      lingering := fun waiting next duty =>
        absurd ⟨waiting, fun free => nomatch free.symm.trans duty⟩ notified
      concluded := by simpa only [List.length_set] using sound.concluded
      queued := fun duty => by
        obtain ⟨none, tasks, queue⟩ := sound.queued duty
        refine ⟨?_, tasks, queue⟩
        simp only [Server.jobs, List.map_set]
        intro member
        rcases List.mem_or_eq_of_mem_set member with before | same
        · exact none before
        · cases same
      dismissed := fun next duty => by
        obtain ⟨ended, empty, inside, stopped⟩ := sound.dismissed next duty
        refine ⟨ended, empty, by simpa using inside, ?_⟩
        intro position bound
        rw [List.length_set] at bound
        have before := stopped position bound
        simp only [Server.jobs, List.map_set] at before placed ⊢
        by_cases here : index = position
        · subst here
          rw [placed] at before
          simp [bound, Worker.free] at before ⊢
          exact before
        · rw [List.getElem?_set_ne here, before] }

/-! ## The closer -/

theorem queued_of_unended (sound : Sound server) (unended : server.closer ≠ .ended)
    {closer : Closer} (still : closer ≠ .ended)
    (duty : ∀ next, server.dispatcher.duty ≠ .dismiss next) :
    some .stop ∉ server.jobs ∧
      ∃ tasks : List Task,
        server.queue = tasks.map .task ++ if closer = .ended then [.stop] else [] := by
  simpa only [if_neg unended, if_neg still] using sound.queued duty

/-- The server stops listening while the acceptor does not wait for a
connection. -/
theorem listening_ends (sound : Sound server) (begins : server.closer = .closing)
    (elsewhere : server.acceptor ≠ .waiting) :
    Sound { server with listening := false, closer := .ordering } :=
  { sound with
    schedule := (begins ▸ sound.schedule).closer_continues
    queued := sound.queued_of_unended (by simp [begins]) nofun
    dismissed := fun next duty => nomatch begins.symm.trans (sound.dismissed next duty).1
    listens := by simp
    awaits := fun waits => absurd waits elsewhere
    retired := fun _ => rfl
    held := nofun }

/-- The server stops listening, and the acceptor that waits for a connection is
woken, for it would wait in vain from now on. -/
theorem acceptor_is_interrupted (sound : Sound server) (begins : server.closer = .closing)
    (waiting : server.acceptor = .waiting) :
    Sound
      { server with
        listening := false
        acceptor := .ready
        ready := server.ready ++ [.acceptor]
        closer := .ordering } :=
  { sound with
    schedule := (begins ▸ sound.schedule).closer_continues.acceptor_wakes (by simp [waiting])
    queued := sound.queued_of_unended (by simp [begins]) nofun
    dismissed := fun next duty => nomatch begins.symm.trans (sound.dismissed next duty).1
    listens := by simp
    awaits := nofun
    retired := nofun
    held := nofun }

/-- The order to stop enters the queue, behind all tasks, and nobody waits for
it. -/
theorem stop_enters_queue (sound : Sound server) (running : server.ready = .closer :: later)
    (ordering : server.closer = .ordering)
    (notified : ¬(server.dispatcher.phase = .waiting ∧ server.dispatcher.duty = .take)) :
    Sound { server with queue := server.queue ++ [.stop], closer := .ended, ready := later } :=
  { sound with
    schedule := (running ▸ sound.schedule).closer_leaves (by simp)
    starved := fun waiting free => absurd ⟨waiting, free⟩ notified
    queued := fun duty => by
      obtain ⟨none, tasks, queue⟩ := sound.queued duty
      exact ⟨none, tasks, by simp [queue, ordering]⟩
    dismissed := fun next duty => nomatch ordering.symm.trans (sound.dismissed next duty).1
    listens := by simp [sound.listens, ordering]
    held := nofun }

/-- The closer waits because the queue is full. -/
theorem closer_waits (sound : Sound server) (running : server.ready = .closer :: later)
    (ordering : server.closer = .ordering) (full : server.hasRoom = false) :
    Sound { server with closer := .waiting, ready := later } :=
  { sound with
    schedule := (running ▸ sound.schedule).closer_leaves (by simp)
    queued := sound.queued_of_unended (by simp [ordering]) nofun
    dismissed := fun next duty => nomatch ordering.symm.trans (sound.dismissed next duty).1
    listens := by simp [sound.listens, ordering]
    held := fun _ => full }

/-- The closer is woken, and does not depend on room any more until it runs. -/
theorem closer_is_woken (sound : Sound server) (waiting : server.closer = .waiting) :
    Sound { server with closer := .ordering, ready := server.ready ++ [.closer] } :=
  { sound with
    schedule := sound.schedule.closer_wakes (by simp [waiting]) (.inr rfl)
    queued := sound.queued_of_unended (by simp [waiting]) nofun
    dismissed := fun next duty => nomatch waiting.symm.trans (sound.dismissed next duty).1
    listens := by simp [sound.listens, waiting]
    held := nofun }

/-- The closer is started. This is no move, since it comes from outside. -/
theorem sound_requestStop (sound : Sound server) (absent : server.closer = .absent) :
    Sound server.requestStop :=
  { sound with
    schedule := sound.schedule.closer_wakes (by simp [absent]) (.inl rfl)
    queued := sound.queued_of_unended (by simp [absent]) nofun
    dismissed := fun next duty => nomatch absent.symm.trans (sound.dismissed next duty).1
    listens := by simp [Server.requestStop, sound.listens, absent]
    held := nofun }

/-! ## Every move -/

/-- The acceptor goes on after a pause, as the only thread that can run. -/
theorem acceptor_resumes (sound : Sound server) (quiet : server.ready = [])
    (aside : server.acceptor = .aside) :
    Sound { server with acceptor := .ready, ready := [.acceptor] } := by
  have woken := sound.schedule.acceptor_wakes (by simp [aside])
  rw [quiet] at woken
  exact { sound with schedule := woken, awaits := nofun, retired := nofun }

/-- The first job of a queue in order is a task, or the order to stop that ends
it. In the second case nothing is left behind it. -/
theorem queue_cases (sound : Sound server) {job : Job} {rest : List Job}
    (free : server.dispatcher.duty = .take) (front : server.queue = job :: rest) :
    some .stop ∉ server.jobs ∧
      ((∃ task, job = .task task ∧ ∃ tasks : List Task,
          rest = tasks.map .task ++ if server.closer = .ended then [.stop] else []) ∨
        job = .stop ∧ rest = [] ∧ server.closer = .ended) := by
  obtain ⟨none, tasks, queue⟩ := sound.queued (by simp [free])
  refine ⟨none, ?_⟩
  rw [front] at queue
  cases tasks with
  | cons task tasks =>
    obtain ⟨rfl, rfl⟩ := List.cons.inj queue
    exact .inl ⟨task, rfl, tasks, rfl⟩
  | nil =>
    by_cases ended : server.closer = .ended
    · simp only [List.map_nil, List.nil_append, if_pos ended, List.cons.injEq] at queue
      exact .inr ⟨queue.1, queue.2, ended⟩
    · simp [ended] at queue

/-- A move keeps a server sound: one case per move, with a lemma for each
above. -/
theorem sound_after_move {next : Server} (sound : Sound server) (move : Move server next) :
    Sound next := by
  cases move with
  | resume quiet aside => exact sound.acceptor_resumes quiet aside
  | await running listening exhausted =>
    exact sound.acceptor_leaves running .waiting nofun _ _ (fun _ => ⟨listening, exhausted⟩) nofun
  | pause running listening next => exact sound.acceptor_leaves running .aside nofun _ _ nofun nofun
  | drop running listening next faulty => exact sound.acceptor_runs running _ _ _ _
  | reject running listening next heard full => exact sound.acceptor_runs running _ _ _ _
  | @enter later wait incoming sendFault arrivals text running listening next heard room notified =>
    have accepted := sound.acceptor_runs running arrivals (server.elapsed + wait)
      (server.connections ++ [server.connection "" 0]) server.log
    exact { accepted.task_enters_queue listening notified (server.taskFor sendFault text) with }
  | retire running silent =>
    have left := sound.acceptor_leaves running .ended nofun server.arrivals server.elapsed nofun
      (fun _ => silent)
    exact { left with }
  | wakeDispatcher waiting => exact sound.dispatcher_is_woken waiting
  | starve running free empty =>
    exact sound.dispatcher_waits running (fun _ => empty)
      (fun _ holds => nomatch free.symm.trans holds)
      (fun _ dismisses => nomatch free.symm.trans dismisses)
  | @take later task rest running free front notified =>
    obtain ⟨none, ⟨_, _, tasks⟩ | ⟨stops, _⟩⟩ := sound.queue_cases free front
    · have runs :=
        sound.dispatcher_runs running rest (.place task) notified (fun _ => ⟨none, tasks⟩) nofun
      exact { runs with }
    · cases stops
  | @heed later rest running free front notified =>
    obtain ⟨none, ⟨_, tasks, _⟩ | ⟨_, empty, ended⟩⟩ := sound.queue_cases free front
    · cases tasks
    · refine sound.dispatcher_runs running rest (.dismiss 0) notified
        (fun other => absurd rfl (other 0)) ?_
      rintro _ ⟨⟩
      refine ⟨ended, empty, Nat.zero_le _, fun index bound => ?_⟩
      constructor
      · intro given
        exact absurd (List.mem_of_getElem? given) none
      · exact fun negative => absurd negative (Nat.not_lt_zero _)
  | place running holds found idle asleep =>
    exact { sound.worker_is_given_task running holds found asleep with }
  | stall events running holds busy silent =>
    refine { sound.dispatcher_waits running (fun free => nomatch holds.symm.trans free)
      (fun _ _ => ?_) (fun _ dismisses => nomatch holds.symm.trans dismisses) with }
    intro member
    obtain ⟨worker, present, idle⟩ := List.mem_map.mp member
    exact busy worker present idle
  | @linger later next worker job running dismisses found busy =>
    refine sound.dispatcher_waits running (fun free => nomatch dismisses.symm.trans free)
      (fun _ holds => nomatch dismisses.symm.trans holds) ?_
    intro other same
    obtain rfl : next = other := by
      cases dismisses.symm.trans same
      rfl
    exact ⟨job, by simp [Server.jobs, found, busy]⟩
  | dismiss running dismisses found idle asleep =>
    exact sound.worker_is_dismissed running dismisses found asleep
  | conclude running dismisses all => exact { sound.dispatcher_ends running dismisses all with }
  | idle running found free =>
    exact sound.worker_leaves running found nofun (by simp [Worker.Employed, free])
  | quit running found told =>
    exact sound.worker_leaves running found nofun (by simp [Worker.Employed, told])
  | work running found given notified =>
    exact { sound.worker_is_freed running found given notified with }
  | silence running begins elsewhere => exact sound.listening_ends begins elsewhere
  | interrupt running begins waiting => exact sound.acceptor_is_interrupted begins waiting
  | order running ordering room notified => exact sound.stop_enters_queue running ordering notified
  | hold running ordering full => exact sound.closer_waits running ordering full
  | wakeCloser waiting => exact sound.closer_is_woken waiting

theorem sound_after_moves {next : Server} (sound : Sound server)
    (moves : Relation.ReflTransGen Move server next) :
    Sound next := by
  induction moves with
  | refl => exact sound
  | tail _ last ih => exact ih.sound_after_move last

end Sound

end Reckon.Service
