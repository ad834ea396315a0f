import Reckon.Proofs.Service.Books
import Reckon.Service.Sequential

/-!
# What a server is going to deliver

The service in sequence can be followed from any point of the arrivals on:
`resume` serves what is still to come when some requests of the batch at hand
have been accepted already. A request may then be processed as soon as it is
accepted, since receiving a batch changes nothing that processing it reads.

The *outlook* of a server is what it will have delivered, and the totals that it
will have recorded, once its pending tasks are processed in order. Processing
the first of them does not change the outlook, and neither does giving it to a
worker. A connection that is turned away, or whose request enters the queue,
changes it as the service in sequence does with the same connection.
-/

namespace Reckon.Service

namespace Sequential

/-! ## Resuming the service -/

/-- Serve arrivals when some requests of the batch at hand have been accepted.
Unlike the service in sequence, it settles every call at once, so that it can be
compared with the server after every move. -/
def resume (capacity accepted : Nat) (progress : Progress) : List Arrival → Progress
  | [] => progress
  | .pause _ :: later => resume capacity 0 progress later
  | .call _ incoming sendFault :: later =>
      match Wire.receive incoming with
      | .error _ =>
          resume capacity accepted (progress.settle ({ incoming, sendFault }, .dropped)) later
      | .ok text =>
          if capacity = 0 ∨ accepted < capacity then
            resume capacity (accepted + 1)
              (progress.settle ({ incoming, sendFault }, .accepted (Request.ofText text))) later
          else resume capacity accepted (progress.settle ({ incoming, sendFault }, .rejected)) later

theorem exists_batches (arrivals : List Arrival) :
    ∃ batch rest, batches arrivals = batch :: rest := by
  induction arrivals with
  | nil => exact ⟨[], [], rfl⟩
  | cons arrival later ih =>
    obtain ⟨batch, rest, cut⟩ := ih
    cases arrival with
    | pause wait => exact ⟨[], batches later, rfl⟩
    | call wait incoming sendFault =>
      exact ⟨{ incoming, sendFault } :: batch, rest, by rw [batches, cut]⟩

/-- To resume the service is to serve the rest of the batch at hand, and then
the other batches. By induction on the arrivals, of which a pause ends the
batch. -/
theorem resume_eq (capacity accepted : Nat) (progress : Progress) (arrivals : List Arrival)
    {batch : List Call} {rest : List (List Call)} (cut : batches arrivals = batch :: rest) :
    resume capacity accepted progress arrivals =
      rest.foldl (fun progress batch => (receive capacity 0 batch).foldl Progress.settle progress)
        ((receive capacity accepted batch).foldl Progress.settle progress) := by
  induction arrivals generalizing accepted progress batch rest with
  | nil =>
    obtain ⟨rfl, rfl⟩ := List.cons.inj cut
    rfl
  | cons arrival later ih =>
    obtain ⟨first, others, following⟩ := exists_batches later
    cases arrival with
    | pause wait =>
      rw [batches, following] at cut
      obtain ⟨rfl, rfl⟩ := List.cons.inj cut
      exact ih 0 progress following
    | call wait incoming sendFault =>
      rw [batches, following] at cut
      obtain ⟨rfl, rfl⟩ := List.cons.inj cut
      cases heard : Wire.receive incoming with
      | error fault =>
        simp only [resume, receive, heard, List.foldl_cons]
        exact ih accepted _ following
      | ok text =>
        by_cases room : capacity = 0 ∨ accepted < capacity
        · simp only [resume, receive, heard, if_pos room, List.foldl_cons]
          exact ih (accepted + 1) _ following
        · simp only [resume, receive, heard, if_neg room, List.foldl_cons]
          exact ih accepted _ following

theorem serve_eq_resume (capacity : Nat) (timer : List Float) (arrivals : List Arrival) :
    serve capacity timer arrivals = resume capacity 0 { timer } arrivals := by
  obtain ⟨batch, rest, cut⟩ := exists_batches arrivals
  rw [resume_eq capacity 0 { timer } arrivals cut, serve, cut, List.foldl_cons]

/-! ## Pending tasks -/

namespace Progress

def push (progress : Progress) (text : String) : Progress :=
  { progress with delivered := progress.delivered ++ [text] }

/-- A task is processed whose connection has been accepted before. -/
def perform (progress : Progress) (task : Task) : Progress :=
  let report := process progress.totals task.request
    { start := progress.timer.headD 0, finish := progress.timer.tail.headD 0 } task.sendFault
  { delivered := progress.delivered.set task.connection report.delivered
    totals := report.totals
    timer := progress.timer.drop 2 }

theorem length_perform (progress : Progress) (task : Task) :
    (progress.perform task).delivered.length = progress.delivered.length :=
  List.length_set

theorem length_foldl_perform (progress : Progress) (tasks : List Task) :
    (tasks.foldl perform progress).delivered.length = progress.delivered.length := by
  induction tasks generalizing progress with
  | nil => rfl
  | cons task rest ih => rw [List.foldl_cons, ih, length_perform]

/-- Tasks of earlier connections are processed in the same way when another
connection is closed. Their replies are put in their own places. -/
theorem foldl_perform_push (progress : Progress) (text : String) {tasks : List Task}
    (known : ∀ task ∈ tasks, task.connection < progress.delivered.length) :
    tasks.foldl perform (progress.push text) = (tasks.foldl perform progress).push text := by
  induction tasks generalizing progress with
  | nil => rfl
  | cons task rest ih =>
    have earlier := known task List.mem_cons_self
    have first : (progress.push text).perform task = (progress.perform task).push text := by
      simp only [push, perform, List.set_append_left _ _ earlier]
    rw [List.foldl_cons, List.foldl_cons, first]
    apply ih
    intro other member
    rw [length_perform]
    exact known other (List.mem_cons_of_mem _ member)

/-- A task of the latest connection is processed as if its request had just been
accepted: the empty text that holds its place is replaced by the reply. -/
theorem perform_push (progress : Progress) (incoming : Except String (List UInt8)) {task : Task}
    (latest : task.connection = progress.delivered.length) :
    (progress.push "").perform task =
      progress.settle ({ incoming, sendFault := task.sendFault }, .accepted task.request) := by
  simp only [push, perform, settle, latest, List.set_append_right _ _ (Nat.le_refl _), Nat.sub_self,
    List.set_cons_zero]

end Progress

end Sequential

open Service.Sequential

def Books.progress (books : Books) : Progress :=
  { delivered := books.connections.map (·.delivered), totals := books.totals, timer := books.timer }

/-- What will have been delivered and recorded once the pending tasks are
processed, in the order in which they stand in the books. -/
def Books.outlook (books : Books) : Progress :=
  books.pending.foldl Progress.perform books.progress

theorem outlook_of_pending {books : Books} (none : books.pending = []) :
    books.outlook = books.progress := by
  rw [Books.outlook, none, List.foldl_nil]

theorem map_delivered_modify (connections : List Connection) (index : Nat) (delivered : String) :
    (connections.modify index fun accepted =>
      { accepted with delivered, closed := accepted.closed + 1 }).map (·.delivered) =
        (connections.map (·.delivered)).set index delivered := by
  apply List.ext_getElem?
  intro position
  rw [List.getElem?_map, List.getElem?_modify, List.getElem?_set, List.getElem?_map,
    List.length_map]
  by_cases here : index = position
  · subst here
    by_cases bound : index < connections.length
    · simp [bound]
    · simp [bound]
  · simp [here]

section Outlook

variable {books next : Books}

/-- A connection that is turned away is served as it is in sequence. The pending
tasks belong to earlier ones. -/
theorem outlook_turnAway (balanced : books.Balanced) (connection : Connection) :
    ({ books with connections := books.connections ++ [connection] } : Books).outlook =
      books.outlook.push connection.delivered := by
  have closed : ({ books with connections := books.connections ++ [connection] } : Books).progress =
      books.progress.push connection.delivered := by
    simp only [Books.progress, Progress.push, List.map_append, List.map_singleton]
  rw [Books.outlook, closed]
  apply Progress.foldl_perform_push _ connection.delivered
  intro task member
  rw [Books.progress, List.length_map]
  exact balanced.known task member

/-- A request that enters the queue is served as it is in sequence, although
other tasks are still to be processed: it will be the last of them. -/
theorem outlook_enter (balanced : books.Balanced) (connection : Connection) (task : Task)
    (undelivered : connection.delivered = "") (latest : task.connection = books.connections.length)
    (entered : List Request) (incoming : Except String (List UInt8)) :
    ({ books with
      connections := books.connections ++ [connection]
      waiting := books.waiting ++ [task]
      entered } : Books).outlook =
        books.outlook.settle ({ incoming, sendFault := task.sendFault },
          .accepted task.request) := by
  have earlier := outlook_turnAway balanced connection
  rw [undelivered] at earlier
  rw [Books.outlook, pending_enter, List.foldl_append]
  refine (congrArg (fun progress => Progress.perform progress task) earlier).trans ?_
  apply Progress.perform_push _ incoming
  rw [latest, Books.outlook, Progress.length_foldl_perform, Books.progress, List.length_map]

/-- When no connection is accepted, the outlook stays as it is. A task that is
processed was the first of those that the outlook takes into account. -/
theorem Effect.outlook_of_length (effect : Effect books next)
    (same : next.connections.length = books.connections.length) : next.outlook = books.outlook := by
  cases effect with
  | quiet => rfl
  | turnAway connection closed => simp at same
  | enter connection task undelivered unclosed latest => simp at same
  | assign task rest first =>
    rw [Books.outlook, pending_assign first]
    rfl
  | perform task rest first =>
    have performed : books.outlook =
        (rest ++ books.waiting).foldl Progress.perform (books.progress.perform task) := by
      rw [Books.outlook, pending_perform first, List.foldl_cons]
    rw [performed, Books.outlook, Books.progress, map_delivered_modify]
    rfl

end Outlook

end Reckon.Service
