import Mathlib.Data.List.Basic
import Reckon.Proofs.Service.Sound

/-!
# The books of the server

What a run is judged by are the connections, the totals, the requests that the
journal shows to have entered the queue, to have been assigned to a worker and
to have been processed, and the tasks that are still to be processed. The tasks
in the hands of workers come first, in the order in which these workers will
run; those that wait follow: the task that the dispatcher holds and then the
queue. The *books* of a server show all this and nothing of how its threads
stand.

Most moves do not change the books. The others turn a connection away, let a
request in, hand the first waiting task to a worker, or perform the first of all
tasks: `Sound.effect_of_move` says so. Two statements about the books therefore
hold at all times. Every connection is either closed once or has one task still
to be processed, and the requests that entered the queue are the processed ones
followed by those of the tasks to come: nothing is lost, nothing is done twice,
and nobody is overtaken.
-/

namespace Reckon.Service

/-! ## What the journal shows -/

def Event.entered? : Event → Option Request
  | .queued request => some request
  | _ => none

def Event.assigned? : Event → Option Request
  | .assigned request => some request
  | _ => none

def Event.processed? : Event → Option Request
  | .processed request _ _ => some request
  | _ => none

/-- The requests that the journal shows in events of one kind, in the order of
the events. -/
def Server.requests (server : Server) (read : Event → Option Request) : List Request :=
  server.log.filterMap fun entry => read entry.event

/-! ## Tasks still to be processed -/

def Job.task? : Job → Option Task
  | .task held => some held
  | .stop => none

def Duty.task? : Duty → Option Task
  | .take => none
  | .place task => some task
  | .dismiss _ => none

/-- The task in the hands of a thread, if it is a worker with one. -/
def taskOf (workers : List Worker) : Thread → Option Task
  | .worker index => workers[index]?.bind fun worker => worker.job.bind Job.task?
  | .acceptor => none
  | .dispatcher => none
  | .closer => none

/-- The tasks in the hands of workers, in the order in which the workers will
run. -/
def Server.inHand (server : Server) : List Task :=
  server.ready.filterMap (taskOf server.workers)

/-- The tasks that wait for a worker, the one that the dispatcher holds before
those in the queue. -/
def Server.waiting (server : Server) : List Task :=
  server.dispatcher.duty.task?.toList ++ server.queue.filterMap Job.task?

/-- What a run is judged by. Threads and phases do not occur in it, so that two
servers with the same books have done the same work. -/
structure Books where
  connections : List Connection
  totals : Totals
  timer : List Float
  inHand : List Task
  waiting : List Task
  entered : List Request
  assigned : List Request
  processed : List Request

def Server.books (server : Server) : Books :=
  { connections := server.connections
    totals := server.totals
    timer := server.timer
    inHand := server.inHand
    waiting := server.waiting
    entered := server.requests Event.entered?
    assigned := server.requests Event.assigned?
    processed := server.requests Event.processed? }

/-- All tasks still to be processed, in the order in which they will be. -/
def Books.pending (books : Books) : List Task :=
  books.inHand ++ books.waiting

/-- The report on a task that is processed next: what is delivered, the totals
afterwards, and the events. -/
def Books.report (books : Books) (task : Task) : Report :=
  process books.totals task.request
    { start := books.timer.headD 0, finish := books.timer.tail.headD 0 } task.sendFault

/-- Nothing is lost, nothing is done twice, and nobody is overtaken. This is the
invariant that every effect keeps. -/
structure Books.Balanced (books : Books) : Prop where
  /-- Every connection is closed once, or has one task still to be processed. -/
  closedOnce : ∀ index connection, books.connections[index]? = some connection →
    connection.closed + books.pending.countP (·.connection = index) = 1
  /-- The tasks belong to connections that have been accepted. -/
  known : ∀ task ∈ books.pending, task.connection < books.connections.length
  /-- Requests are processed in the order in which they entered. -/
  inOrder : books.entered = books.processed ++ books.pending.map (·.request)
  /-- Those assigned but not yet processed are in the hands of workers. -/
  handed : books.assigned = books.processed ++ books.inHand.map (·.request)

/-- What a move may do to the books. There are five ways, far fewer than moves,
and whatever they all preserve is preserved by every run. -/
inductive Effect (books : Books) : Books → Prop where
  /-- Nothing. -/
  | quiet : Effect books books
  /-- A connection is accepted and closed at once. -/
  | turnAway (connection : Connection) (closed : connection.closed = 1) :
      Effect books { books with connections := books.connections ++ [connection] }
  /-- A connection is accepted, and its request enters the queue. -/
  | enter (connection : Connection) (task : Task) (undelivered : connection.delivered = "")
      (unclosed : connection.closed = 0) (latest : task.connection = books.connections.length) :
      Effect books
        { books with
          connections := books.connections ++ [connection]
          waiting := books.waiting ++ [task]
          entered := books.entered ++ [task.request] }
  /-- The first waiting task is given to a worker. -/
  | assign (task : Task) (rest : List Task) (first : books.waiting = task :: rest) :
      Effect books
        { books with
          inHand := books.inHand ++ [task]
          waiting := rest
          assigned := books.assigned ++ [task.request] }
  /-- The first task is processed, and its connection is closed. -/
  | perform (task : Task) (rest : List Task) (first : books.inHand = task :: rest) :
      Effect books
        { books with
          connections := books.connections.modify task.connection fun accepted =>
            { accepted with
              delivered := (books.report task).delivered, closed := accepted.closed + 1 }
          totals := (books.report task).totals
          timer := books.timer.drop 2
          inHand := rest
          processed := books.processed ++ [task.request] }

/-! ## Balance -/

section Pending

variable {books : Books} {task : Task} {rest : List Task} (connections : List Connection)

theorem pending_enter (entered : List Request) :
    ({ books with connections, waiting := books.waiting ++ [task], entered } : Books).pending =
      books.pending ++ [task] :=
  (List.append_assoc _ _ _).symm

/-- The tasks still to be processed are the same when one of them is given to a
worker: the first that waits becomes the last in hand. -/
theorem pending_assign (first : books.waiting = task :: rest) {assigned : List Request} :
    ({ books with inHand := books.inHand ++ [task], waiting := rest, assigned } : Books).pending =
      books.pending := by
  simp only [Books.pending, first, List.append_assoc, List.singleton_append]

theorem pending_perform (first : books.inHand = task :: rest) :
    books.pending = task :: (rest ++ books.waiting) := by
  rw [Books.pending, first, List.cons_append]

end Pending

/-- The first task is processed: its connection is closed, and the others are as
they were. What the connection gains in being closed it loses in tasks. -/
theorem closedOnce_perform {connections : List Connection} {task : Task} {rest : List Task}
    (once : ∀ index connection, connections[index]? = some connection →
      connection.closed + (task :: rest).countP (·.connection = index) = 1)
    (delivered : String) :
    ∀ index connection,
      (connections.modify task.connection fun accepted =>
        { accepted with delivered, closed := accepted.closed + 1 })[index]? = some connection →
      connection.closed + rest.countP (·.connection = index) = 1 := by
  intro index connection found
  rw [List.getElem?_modify, Option.map_eq_map, Option.map_eq_some_iff] at found
  obtain ⟨before, present, changed⟩ := found
  have balance := once index before present
  rw [List.countP_cons] at balance
  by_cases here : task.connection = index
  · rw [if_pos here] at changed
    rw [if_pos (by simpa using here)] at balance
    rw [← changed]
    simp only
    omega
  · rw [if_neg here] at changed
    rw [if_neg (by simpa using here)] at balance
    rw [← changed]
    exact balance

/-- A new connection is closed at once or comes with a task of its own; the
others are as they were. No task knew the new connection before. -/
theorem closedOnce_append {connections : List Connection} {pending : List Task}
    (once : ∀ index connection, connections[index]? = some connection →
      connection.closed + pending.countP (·.connection = index) = 1)
    (known : ∀ task ∈ pending, task.connection < connections.length) (latest : Connection)
    (added : List Task) (own : ∀ task ∈ added, task.connection = connections.length)
    (balance : latest.closed + added.length = 1) :
    ∀ index connection, (connections ++ [latest])[index]? = some connection →
      connection.closed + (pending ++ added).countP (·.connection = index) = 1 := by
  intro index connection found
  rw [List.countP_append]
  have bound := (List.getElem?_eq_some_iff.mp found).1
  rw [List.length_append, List.length_singleton] at bound
  by_cases last : index = connections.length
  · subst last
    have none : pending.countP (·.connection = connections.length) = 0 := by
      apply List.countP_eq_zero.mpr
      intro task member same
      have less := known task member
      simp only [decide_eq_true_eq] at same
      omega
    have all : added.countP (·.connection = connections.length) = added.length :=
      List.countP_eq_length.mpr fun task member => by simpa using own task member
    obtain rfl : latest = connection := by simpa using found
    omega
  · have none : added.countP (·.connection = index) = 0 := by
      apply List.countP_eq_zero.mpr
      intro task member same
      rw [decide_eq_true_eq] at same
      exact last (same.symm.trans (own task member))
    rw [List.getElem?_append_left (by omega)] at found
    rw [none]
    exact once index connection found

/-- Every effect keeps the books balanced. Only the first and the last task of
the queue have to be looked at, since tasks enter behind and are processed in
front. -/
theorem Effect.balanced_after {books next : Books} (effect : Effect books next)
    (balanced : books.Balanced) :
    next.Balanced := by
  cases effect with
  | quiet => exact balanced
  | turnAway connection closed =>
    refine { balanced with closedOnce := ?_, known := ?_ }
    · have once := closedOnce_append balanced.closedOnce balanced.known connection [] nofun closed
      rwa [List.append_nil] at once
    · intro task member
      have before := balanced.known task member
      rw [List.length_append]
      exact Nat.lt_add_right _ before
  | enter connection task undelivered unclosed latest =>
    refine ⟨?_, ?_, ?_, balanced.handed⟩
    · rw [pending_enter]
      exact closedOnce_append balanced.closedOnce balanced.known connection [task]
        (by simpa using latest) (by simp [unclosed])
    · rw [pending_enter, List.length_append, List.length_singleton]
      intro other member
      rcases List.mem_append.mp member with before | last
      · exact Nat.lt_add_right _ (balanced.known other before)
      · rw [List.mem_singleton.mp last, latest]
        exact Nat.lt_succ_self _
    · rw [pending_enter, balanced.inOrder, List.map_append, List.append_assoc]
      rfl
  | assign task rest first =>
    refine ⟨?_, ?_, ?_, ?_⟩
    · rw [pending_assign first]
      exact balanced.closedOnce
    · rw [pending_assign first]
      exact balanced.known
    · rw [pending_assign first]
      exact balanced.inOrder
    · simp only [balanced.handed, List.map_append, List.map_singleton, List.append_assoc]
  | perform task rest first =>
    obtain ⟨once, known, inOrder, handed⟩ := balanced
    rw [pending_perform first] at once known inOrder
    rw [first] at handed
    refine ⟨closedOnce_perform once _, ?_, ?_, ?_⟩
    · intro other member
      rw [List.length_modify]
      exact known other (List.mem_cons_of_mem _ member)
    · rw [inOrder, List.append_assoc]
      rfl
    · rw [handed, List.append_assoc]
      rfl

/-- When no connection is accepted, no request enters, and nothing is added to
what is to be processed. -/
theorem Effect.entered_of_length {books next : Books} (effect : Effect books next)
    (same : next.connections.length = books.connections.length) :
    next.entered = books.entered ∧ (books.pending = [] → next.pending = []) := by
  cases effect with
  | quiet => exact ⟨rfl, id⟩
  | turnAway connection closed => simp at same
  | enter connection task undelivered unclosed latest => simp at same
  | assign task rest first => exact ⟨rfl, fun none => (pending_assign first).trans none⟩
  | perform task rest first => exact ⟨rfl, fun none => by simp [pending_perform first] at none⟩

/-! ## The journal grows -/

/-- An event in which no request makes progress, such as the loss of a reply. -/
def Event.IsQuiet (event : Event) : Prop :=
  event.entered? = none ∧ event.assigned? = none ∧ event.processed? = none

theorem requests_noteAll (server : Server) (read : Event → Option Request) (events : List Event) :
    (server.noteAll events).requests read = server.requests read ++ events.filterMap read := by
  simp [Server.requests, Server.noteAll, List.filterMap_map]

/-- What several events add to the books. -/
theorem books_noteAll (server : Server) (events : List Event) :
    (server.noteAll events).books =
      { server.books with
        entered := server.books.entered ++ events.filterMap Event.entered?
        assigned := server.books.assigned ++ events.filterMap Event.assigned?
        processed := server.books.processed ++ events.filterMap Event.processed? } := by
  simp only [Server.books, requests_noteAll]
  rfl

theorem books_noteAll_of_quiet (server : Server) {events : List Event}
    (quiet : ∀ event ∈ events, event.IsQuiet) : (server.noteAll events).books = server.books := by
  have entered : events.filterMap Event.entered? = [] :=
    List.filterMap_eq_nil_iff.mpr fun event member => (quiet event member).1
  have assigned : events.filterMap Event.assigned? = [] :=
    List.filterMap_eq_nil_iff.mpr fun event member => (quiet event member).2.1
  have processed : events.filterMap Event.processed? = [] :=
    List.filterMap_eq_nil_iff.mpr fun event member => (quiet event member).2.2
  simp only [books_noteAll, entered, assigned, processed, List.append_nil]

/-- A quiet event does not show in the books. -/
theorem books_note_of_quiet (server : Server) {event : Event} (quiet : event.IsQuiet) :
    (server.note event).books = server.books := by
  refine @books_noteAll_of_quiet server [event] fun other member => ?_
  rw [List.mem_singleton.mp member]
  exact quiet

theorem books_note_queued (server : Server) (request : Request) :
    (server.note (.queued request)).books =
      { server.books with entered := server.books.entered ++ [request] } := by
  refine (books_noteAll server [.queued request]).trans ?_
  simp only [List.filterMap_cons, List.filterMap_nil, Event.entered?, Event.assigned?,
    Event.processed?, List.append_nil]

theorem books_note_assigned (server : Server) (request : Request) :
    (server.note (.assigned request)).books =
      { server.books with assigned := server.books.assigned ++ [request] } := by
  refine (books_noteAll server [.assigned request]).trans ?_
  simp only [List.filterMap_cons, List.filterMap_nil, Event.entered?, Event.assigned?,
    Event.processed?, List.append_nil]

/-- The events of a rejection are quiet. -/
theorem isQuiet_of_rejection (request : Request) (sendFault : Option String) :
    ∀ event ∈ .rejected request :: lossEvents (.rejectionLost request) sendFault,
      event.IsQuiet := by
  intro event member
  rcases List.mem_cons.mp member with rfl | lost
  · exact ⟨rfl, rfl, rfl⟩
  · cases sendFault with
    | none => cases lost
    | some fault =>
      obtain rfl := List.mem_singleton.mp lost
      exact ⟨rfl, rfl, rfl⟩

/-- The report on a task shows that its request has been processed, and nothing
else of interest. This holds for every outcome, and whether or not the reply is
lost. -/
theorem requests_process (totals : Totals) (request : Request) (timing : Timing)
    (fault : Option String) :
    let events := (process totals request timing fault).events
    events.filterMap Event.entered? = [] ∧ events.filterMap Event.assigned? = [] ∧
      events.filterMap Event.processed? = [request] := by
  cases fault <;> cases outcome : evaluate request.expression.toList <;>
    simp only [process, outcome, failureEvents, lossEvents] <;>
    exact ⟨rfl, rfl, rfl⟩

/-- What a processed task changes in the books, apart from the hands in which it
was. -/
theorem books_perform (server : Server) (task : Task) :
    (server.perform task).books =
      { server.books with
        connections := server.connections.modify task.connection fun accepted =>
          { accepted with
            delivered := (server.books.report task).delivered, closed := accepted.closed + 1 }
        totals := (server.books.report task).totals
        timer := server.timer.drop 2
        processed := server.books.processed ++ [task.request] } := by
  obtain ⟨entered, assigned, processed⟩ :=
    requests_process server.totals task.request server.timing task.sendFault
  have shown := fun read => requests_noteAll server read
    (process server.totals task.request server.timing task.sendFault).events
  have enteredShown := shown Event.entered?
  have assignedShown := shown Event.assigned?
  have processedShown := shown Event.processed?
  rw [entered, List.append_nil] at enteredShown
  rw [assigned, List.append_nil] at assignedShown
  rw [processed] at processedShown
  simp only [Server.books, ← enteredShown, ← assignedShown, ← processedShown]
  rfl

/-! ## Tasks change hands -/

section Hands

variable {workers : List Worker} {index : Nat} {worker changed : Worker}

theorem taskOf_set_of_ne (changed : Worker) {thread : Thread} (other : thread ≠ .worker index) :
    taskOf (workers.set index changed) thread = taskOf workers thread := by
  cases thread with
  | worker position =>
    have different : index ≠ position := fun same => other (congrArg _ same.symm)
    simp only [taskOf, List.getElem?_set_ne different]
  | acceptor => rfl
  | dispatcher => rfl
  | closer => rfl

theorem taskOf_set_self (found : workers[index]? = some worker) (changed : Worker) :
    taskOf (workers.set index changed) (.worker index) = changed.job.bind Job.task? := by
  simp [taskOf, getElem?_set_of_found found]

/-- A change of a worker that is not among the threads changes nothing in the
hands of these. -/
theorem filterMap_taskOf_set (changed : Worker) {threads : List Thread}
    (absent : Thread.worker index ∉ threads) :
    threads.filterMap (taskOf (workers.set index changed)) = threads.filterMap (taskOf workers) :=
  List.filterMap_congr fun _ member =>
    taskOf_set_of_ne changed fun same => absent (same ▸ member)

end Hands

namespace Sound

variable {server next : Server} {later : List Thread}

theorem not_ready (sound : Sound server) {index : Nat} {worker : Worker}
    (found : server.workers[index]? = some worker) (asleep : worker.phase ≠ .ready) :
    Thread.worker index ∉ server.ready := by
  intro member
  obtain ⟨other, present, awake⟩ := (sound.schedule.runnable (.worker index)).mp member
  cases found.symm.trans present
  exact asleep awake

theorem not_later (sound : Sound server) {thread : Thread}
    (running : server.ready = thread :: later) :
    thread ∉ later :=
  (List.nodup_cons.mp (running ▸ sound.schedule.distinct)).1

/-- What a server has recorded of the past. Moves that only concern threads
leave it as it is. -/
def record (server : Server) : List Connection × Totals × List Float × List Entry :=
  (server.connections, server.totals, server.timer, server.log)

/-- A move that records nothing and leaves the tasks where they are has no
effect. -/
theorem effect_of_same (recorded : record next = record server)
    (inHand : next.inHand = server.inHand) (waiting : next.waiting = server.waiting) :
    Effect server.books next.books := by
  simp only [record, Prod.mk.injEq] at recorded
  obtain ⟨connections, totals, timer, log⟩ := recorded
  have same : next.books = server.books := by
    simp only [Server.books, Server.requests, connections, totals, timer, inHand, waiting, log]
  exact same ▸ .quiet

theorem effect_noteAll {books : Books} {events : List Event} (effect : Effect books next.books)
    (quiet : ∀ event ∈ events, event.IsQuiet) : Effect books (next.noteAll events).books :=
  (books_noteAll_of_quiet next quiet).symm ▸ effect

/-- A quiet event adds nothing to the effect of a move. -/
theorem effect_note {books : Books} {event : Event} (effect : Effect books next.books)
    (quiet : event.IsQuiet) : Effect books (next.note event).books :=
  (books_note_of_quiet next quiet).symm ▸ effect

/-- A thread without a task stops running, and no task leaves the hands of
workers. -/
theorem inHand_leave {thread : Thread} (running : server.ready = thread :: later)
    (free : taskOf server.workers thread = none) :
    later.filterMap (taskOf server.workers) = server.inHand := by
  rw [Server.inHand, running, List.filterMap_cons_none free]

/-- A thread without a task is woken, and brings no task into them. -/
theorem inHand_wake (ready : List Thread) (workers : List Worker) {thread : Thread}
    (free : taskOf workers thread = none) :
    (ready ++ [thread]).filterMap (taskOf workers) = ready.filterMap (taskOf workers) := by
  rw [List.filterMap_append, List.filterMap_cons_none free, List.filterMap_nil, List.append_nil]

theorem waiting_enqueue (server : Server) (task : Task) :
    server.dispatcher.duty.task?.toList ++ (server.queue ++ [Job.task task]).filterMap Job.task? =
      server.waiting ++ [task] := by
  rw [Server.waiting, List.filterMap_append, List.append_assoc]
  rfl

/-- A worker that was asleep is given a job and woken. Being the last to run, it
has the last of the tasks in hand, if the job is one. -/
theorem inHand_given (sound : Sound server) {index : Nat} {worker : Worker}
    (found : server.workers[index]? = some worker) (asleep : worker.phase ≠ .ready) (job : Job) :
    (server.ready ++ [Thread.worker index]).filterMap
        (taskOf (server.workers.set index { phase := .ready, job := some job })) =
      server.inHand ++ job.task?.toList := by
  rw [List.filterMap_append, filterMap_taskOf_set _ (sound.not_ready found asleep),
    List.filterMap_cons, taskOf_set_self found]
  cases job <;> rfl

/-- A worker without a task stops running, whatever becomes of it. -/
theorem inHand_worker_leave (sound : Sound server) {index : Nat}
    (running : server.ready = .worker index :: later) {worker : Worker}
    (found : server.workers[index]? = some worker) (free : worker.job.bind Job.task? = none)
    (changed : Worker) :
    later.filterMap (taskOf (server.workers.set index changed)) = server.inHand := by
  rw [filterMap_taskOf_set changed (sound.not_later running)]
  exact inHand_leave running (by simp [taskOf, found, free])

/-- Every move has one of the effects. The moves that wake a thread or put one
to sleep are quiet; the acceptor turns a connection away or lets a request in,
the dispatcher gives a task away, and a worker performs one. -/
theorem effect_of_move (sound : Sound server) (move : Move server next) :
    Effect server.books next.books := by
  cases move with
  | resume quiet aside => exact effect_of_same rfl (by simp [Server.inHand, quiet, taskOf]) rfl
  | await running listening exhausted =>
    exact effect_of_same rfl (inHand_leave running rfl) rfl
  | pause running listening next =>
    exact effect_of_same rfl (inHand_leave running rfl) rfl
  | drop running listening next faulty =>
    exact effect_note (.turnAway (server.connection "" 1) rfl) ⟨rfl, rfl, rfl⟩
  | @reject later wait incoming sendFault arrivals text running listening next heard full =>
    exact effect_noteAll
      (.turnAway (server.connection (delivery Settings.rejection sendFault) 1) rfl)
      (isQuiet_of_rejection _ sendFault)
  | @enter later wait incoming sendFault arrivals text running listening next heard room notified =>
    rw [books_note_queued]
    have effect : Effect server.books _ :=
      .enter (server.connection "" 0) (server.taskFor sendFault text) rfl rfl rfl
    have waiting := waiting_enqueue server (server.taskFor sendFault text)
    simp only [Server.books, ← waiting] at effect
    exact effect
  | retire running silent =>
    exact effect_note (effect_of_same rfl (inHand_leave running rfl) rfl) ⟨rfl, rfl, rfl⟩
  | wakeDispatcher waiting => exact effect_of_same rfl (inHand_wake _ _ rfl) rfl
  | starve running free empty =>
    exact effect_of_same rfl (inHand_leave running rfl) rfl
  | take running free front notified =>
    refine effect_note (effect_of_same rfl rfl ?_) ⟨rfl, rfl, rfl⟩
    rw [Server.waiting, Server.waiting, free, front]
    rfl
  | heed running free front notified =>
    refine effect_of_same rfl rfl ?_
    rw [Server.waiting, Server.waiting, free, front]
    rfl
  | @place later task index worker running holds found idle asleep =>
    rw [books_note_assigned]
    have effect : Effect server.books _ :=
      .assign task (server.queue.filterMap Job.task?)
        (by simp [Server.books, Server.waiting, holds, Duty.task?])
    have given := sound.inHand_given found asleep (.task task)
    have inHand : _ = server.inHand ++ [task] := given
    simp only [Server.books, ← inHand] at effect
    exact effect
  | stall events running holds busy silent =>
    refine effect_noteAll (effect_of_same rfl (inHand_leave running rfl) rfl) ?_
    intro event member
    rw [silent event member]
    exact ⟨rfl, rfl, rfl⟩
  | linger running dismisses found busy =>
    exact effect_of_same rfl (inHand_leave running rfl) rfl
  | dismiss running dismisses found idle asleep =>
    refine effect_of_same rfl ?_ ?_
    · exact (sound.inHand_given found asleep .stop).trans (List.append_nil _)
    · rw [Server.waiting, Server.waiting, dismisses]
      rfl
  | conclude running dismisses all =>
    exact effect_note (effect_of_same rfl (inHand_leave running rfl) rfl) ⟨rfl, rfl, rfl⟩
  | idle running found free =>
    exact effect_of_same rfl (sound.inHand_worker_leave running found (by simp [free]) _) rfl
  | quit running found told =>
    exact effect_of_same rfl
      (sound.inHand_worker_leave running found (by simp [told, Job.task?]) _) rfl
  | @work later index worker task running found given notified =>
    have inHand : server.inHand = task :: later.filterMap (taskOf server.workers) := by
      simp [Server.inHand, running, taskOf, found, given, Job.task?]
    have freed : server.ready.filterMap
        (taskOf (server.workers.set index worker.free)) =
          later.filterMap (taskOf server.workers) := by
      rw [running, List.filterMap_cons_none (by simp [taskOf_set_self found, Worker.free])]
      exact filterMap_taskOf_set _ (sound.not_later running)
    have effect : Effect server.books _ := .perform task _ inHand
    have same : ({ server.perform task with
        workers := server.workers.set index worker.free } : Server).books =
          { (server.perform task).books with
            inHand := server.ready.filterMap
              (taskOf (server.workers.set index worker.free)) } := rfl
    rw [same, books_perform, freed]
    exact effect
  | silence running begins elsewhere => exact .quiet
  | interrupt running begins waiting =>
    exact effect_of_same rfl (inHand_wake _ _ rfl) rfl
  | order running ordering room notified =>
    refine effect_of_same rfl (inHand_leave running rfl) ?_
    rw [Server.waiting, Server.waiting, List.filterMap_append]
    simp [Job.task?]
  | hold running ordering full =>
    exact effect_of_same rfl (inHand_leave running rfl) rfl
  | wakeCloser waiting => exact effect_of_same rfl (inHand_wake _ _ rfl) rfl

end Sound

end Reckon.Service
