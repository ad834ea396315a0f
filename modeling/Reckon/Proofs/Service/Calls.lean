import Reckon.Proofs.Service.Custody
import Reckon.Service.Sequential

/-!
# What becomes of a call

Connections are accepted in the order of the calls, so the connection at a
position is that of the call at the same position. Its `Fate` is to wait for an
answer, to be dropped because the call brought no request, to be rejected, or to
be answered; and what is delivered then is the answer to the request of this
very call. For as long as the call waits, a task carries its request and its
send fault through the hands of all threads.

`Passes.follows_calls` says so of every server of a run, with any number of
workers and whenever the server is told to stop.
-/

namespace Reckon.Service

open Service.Sequential (Call)

def Arrival.call? : Arrival → Option Call
  | .pause _ => none
  | .call _ incoming sendFault => some { incoming, sendFault }

/-- The calls among arrivals, in their order. -/
def calls (arrivals : List Arrival) : List Call :=
  arrivals.filterMap Arrival.call?

/-- The request that a call brings, if it brings one that can be heard. -/
def Sequential.Call.request? (call : Call) : Option Request :=
  match Wire.receive call.incoming with
  | .error _ => none
  | .ok text => some (Request.ofText text)

/-- What has become of the connection of a call. -/
inductive Fate (call : Call) (connection : Connection) : Prop where
  /-- It waits for an answer. -/
  | awaited (unclosed : connection.closed = 0) (nothing : connection.delivered = "")
  /-- It brought no request. -/
  | dropped (closed : 0 < connection.closed) (silent : call.request? = none)
      (nothing : connection.delivered = "")
  /-- Its request found the queue full. -/
  | rejected (closed : 0 < connection.closed) (request : Request)
      (heard : call.request? = some request)
      (reply : connection.delivered = delivery Settings.rejection call.sendFault)
  /-- Its request has been processed. -/
  | answered (closed : 0 < connection.closed) (request : Request)
      (heard : call.request? = some request)
      (reply : connection.delivered =
        delivery (outcomeText (evaluate request.expression.toList)) call.sendFault)

theorem Fate.nothing_of_unclosed {call : Call} {connection : Connection}
    (fate : Fate call connection) (unclosed : connection.closed = 0) :
    connection.delivered = "" := by
  cases fate with
  | awaited _ nothing => exact nothing
  | dropped closed => exact absurd unclosed (Nat.ne_of_gt closed)
  | rejected closed => exact absurd unclosed (Nat.ne_of_gt closed)
  | answered closed => exact absurd unclosed (Nat.ne_of_gt closed)

/-- The task is that of the call. -/
structure Task.IsOf (task : Task) (call : Call) : Prop where
  request : call.request? = some task.request
  sendFault : task.sendFault = call.sendFault

/-- Tasks and connections are those of the calls at their positions. A
connection that waits for an answer has a task, so its answer will be that of
its call. -/
structure Books.Follow (all : List Call) (books : Books) : Prop where
  tasks : ∀ task ∈ books.pending, ∃ call, all[task.connection]? = some call ∧ task.IsOf call
  fates : ∀ (index : Nat) connection, books.connections[index]? = some connection →
    ∃ call, all[index]? = some call ∧ Fate call connection

/-- The calls that have not been accepted are still ahead, and the others are in
the books. -/
structure Server.Follows (all : List Call) (server : Server) : Prop where
  ahead : calls server.arrivals = all.drop server.connections.length
  books : server.books.Follow all

variable {all : List Call}

theorem Books.Follow.fates_append {books : Books} (follow : books.Follow all) {call : Call}
    (next : all[books.connections.length]? = some call) {connection : Connection}
    (fate : Fate call connection) :
    ∀ (index : Nat) accepted, (books.connections ++ [connection])[index]? = some accepted →
      ∃ call, all[index]? = some call ∧ Fate call accepted := by
  intro index accepted found
  have bound := (List.getElem?_eq_some_iff.mp found).1
  rw [List.length_append, List.length_singleton] at bound
  rcases Nat.lt_succ_iff_lt_or_eq.mp bound with before | rfl
  · rw [List.getElem?_append_left before] at found
    exact follow.fates index accepted found
  · obtain rfl : connection = accepted := by simpa using found
    exact ⟨call, next, fate⟩

/-- Where no connection is accepted, tasks and connections stay those of the
calls. A task that is processed answers its call, since it carries the request
and the send fault of this call. -/
theorem Effect.follow_after {books next : Books} (effect : Effect books next)
    (same : next.connections.length = books.connections.length) (follow : books.Follow all) :
    next.Follow all := by
  cases effect with
  | quiet => exact follow
  | turnAway connection closed => simp at same
  | enter connection task undelivered unclosed latest => simp at same
  | assign task rest first =>
    constructor
    · rw [pending_assign first]
      exact follow.tasks
    · exact follow.fates
  | perform task rest first =>
    have pending := pending_perform first
    constructor
    · intro other member
      exact follow.tasks other (pending ▸ List.mem_cons_of_mem task member)
    · intro index connection found
      obtain ⟨before, present, changed⟩ :=
        Option.map_eq_some_iff.mp ((List.getElem?_modify ..).symm.trans found)
      by_cases here : task.connection = index
      · obtain ⟨call, known, own⟩ := follow.tasks task (pending ▸ List.mem_cons_self)
        refine ⟨call, here ▸ known, ?_⟩
        rw [if_pos here] at changed
        subst changed
        refine .answered (Nat.succ_pos _) task.request own.request ?_
        rw [← own.sendFault]
        rfl
      · rw [if_neg here] at changed
        exact changed ▸ follow.fates index before present

namespace Server.Follows

variable {server next : Server}

/-- The call that is accepted next belongs to the next connection, because all
calls before it have been accepted and none behind it. -/
theorem next_call (follows : server.Follows all) {wait : Int}
    {incoming : Except String (List UInt8)} {sendFault : Option String} {arrivals : List Arrival}
    (next : server.arrivals = .call wait incoming sendFault :: arrivals) :
    all[server.connections.length]? = some { incoming, sendFault } ∧
      calls arrivals = all.drop (server.connections.length + 1) := by
  have ahead : { incoming, sendFault } :: calls arrivals = all.drop server.connections.length := by
    rw [← follows.ahead, next]
    rfl
  constructor
  · have first := congrArg (fun list : List Call => list[0]?) ahead
    simpa using first.symm
  · rw [← List.drop_drop, ← ahead]
    rfl

theorem follows_turnAway (follows : server.Follows all) {call : Call}
    (known : all[server.connections.length]? = some call)
    (ahead : calls next.arrivals = all.drop (server.connections.length + 1))
    {connection : Connection} (connections : next.connections = server.connections ++ [connection])
    (fate : Fate call connection) (pending : next.books.pending = server.books.pending) :
    next.Follows all := by
  refine ⟨?_, ?_, ?_⟩
  · rw [connections, List.length_append, List.length_singleton]
    exact ahead
  · rw [pending]
    exact follows.books.tasks
  · intro index accepted found
    rw [Server.books, connections] at found
    exact follows.books.fates_append known fate index accepted found

/-- A connection whose request enters the queue is followed if its task is that
of the next call. -/
theorem follows_enter (follows : server.Follows all) {call : Call}
    (known : all[server.connections.length]? = some call)
    (ahead : calls next.arrivals = all.drop (server.connections.length + 1))
    {connection : Connection} (connections : next.connections = server.connections ++ [connection])
    (fate : Fate call connection) {task : Task}
    (latest : task.connection = server.connections.length) (own : task.IsOf call)
    (pending : next.books.pending = server.books.pending ++ [task]) :
    next.Follows all := by
  refine ⟨?_, ?_, ?_⟩
  · rw [connections, List.length_append, List.length_singleton]
    exact ahead
  · rw [pending]
    intro other member
    rcases List.mem_append.mp member with before | last
    · exact follows.books.tasks other before
    · obtain rfl := List.mem_singleton.mp last
      exact ⟨call, latest ▸ known, own⟩
  · intro index accepted found
    rw [Server.books, connections] at found
    exact follows.books.fates_append known fate index accepted found

/-- Moves keep to the calls. Only the acceptor takes a call, and it gives the
next connection the fate of this call. -/
theorem follows_after_move (follows : server.Follows all) (sound : Sound server)
    (move : Move server next) :
    next.Follows all := by
  have kept := fun same => (sound.effect_of_move move).follow_after same follows.books
  cases move with
  | pause running listening next =>
    refine ⟨?_, kept rfl⟩
    rw [← follows.ahead, next]
    rfl
  | drop running listening next faulty =>
    obtain ⟨known, ahead⟩ := follows.next_call next
    refine follows.follows_turnAway known ahead rfl (.dropped Nat.one_pos ?_ rfl) rfl
    rw [Call.request?, faulty]
  | @reject later wait incoming sendFault arrivals text running listening next heard full =>
    obtain ⟨known, ahead⟩ := follows.next_call next
    refine follows.follows_turnAway known ahead rfl
      (.rejected Nat.one_pos (Request.ofText text) ?_ rfl) rfl
    rw [Call.request?, heard]
  | @enter later wait incoming sendFault arrivals text running listening next heard room notified =>
    obtain ⟨known, ahead⟩ := follows.next_call next
    have pending := (congrArg (server.inHand ++ ·)
      (Sound.waiting_enqueue server (server.taskFor sendFault text))).trans
        (List.append_assoc ..).symm
    refine follows.follows_enter known ahead rfl (.awaited rfl rfl) rfl ⟨?_, rfl⟩ pending
    rw [Call.request?, heard, Server.taskFor]
  | @work later index worker task running found given notified =>
    have same : (server.perform task).connections.length = server.connections.length :=
      List.length_modify ..
    refine ⟨follows.ahead.trans ?_, kept same⟩
    rw [same]
  | _ => exact ⟨follows.ahead, kept rfl⟩

theorem follows_start (scenario : Scenario) :
    (Server.start scenario).Follows (calls scenario.arrivals) := by
  refine ⟨rfl, ?_⟩
  rw [Server.books_start]
  exact ⟨nofun, nofun⟩

theorem follows_requestStop (follows : server.Follows all) : server.requestStop.Follows all :=
  ⟨follows.ahead, server.books_requestStop ▸ follows.books⟩

end Server.Follows

/-- Every server of a run keeps to the calls: its connections are theirs, in
their order, and what is delivered over a connection is the answer to the call.
No assumption is made on the number of workers or on when the server is told to
stop. -/
theorem Scenario.Passes.follows_calls {scenario : Scenario} {server : Server}
    (passes : scenario.Passes server) : server.Follows (calls scenario.arrivals) := by
  refine passes.holds_of_moves (.follows_start scenario)
    (fun _ follows => follows.follows_requestStop) ?_
  intro server next orderly move follows
  exact follows.follows_after_move orderly.sound move

end Reckon.Service
