import Reckon.Keypad
import Reckon.Proofs.Batch.Served
import Reckon.Proofs.Scanning
import Reckon.Proofs.Service.Calls
import Reckon.Proofs.Service.Shutdown
import Reckon.Proofs.Service.Survival

/-!
# The service agrees with the keypad

The keypad and the service are two ways to the same evaluation. The keypad
evaluates what was typed, as it stands. The service gets to the expression by
way of an encoding, a cut, a decoding, the first colon and the removal of
surrounding blanks. Whatever was typed, it replies what the keypad shows, if the
message fits into what is received at once: decoding undoes the encoding, a
colon that is not the first stays in the expression, and blanks make no
difference to an evaluation.

This holds of a call that is answered by itself, and of a call among others in
any run: unless its request found the queue full, what is delivered is what the
keypad shows.
-/

namespace Reckon

namespace Service

open Service.Sequential (Call)

/-- A call whose message fits brings the request that the message is read as:
the cut takes nothing away, and decoding undoes the encoding. -/
theorem request?_of_fits {message : String} (sendFault : Option String)
    (fits : (Wire.send message).length ≤ Settings.service.receiveSize) :
    Call.request? { incoming := .ok (Wire.send message), sendFault } =
      some (Request.ofText message.toList) := by
  rw [Call.request?, Wire.receive_send fits]

/-- A running worker delivers the outcome of its task. The task is pending, so
the balance of the books gives its connection, and the action closes it with the
report. -/
theorem Server.InOrder.delivered_by_worker {count : Nat} {server : Server}
    (orderly : server.InOrder count) {index : Nat} {task : Task} {later : List Thread}
    (running : server.ready = .worker index :: later)
    (full : server.slot index = some (.task task)) :
    ∃ connection, server.step.connections[task.connection]? = some connection ∧
      connection.delivered =
        delivery (outcomeText (evaluate task.request.expression.toList)) task.sendFault := by
  have known := orderly.balanced.known task (orderly.sound.mem_pending_of_slot full)
  rw [Server.connections_step_of_slot orderly.sound running full, Server.perform, Server.close]
  simp only [List.getElem?_modify_eq]
  exact ⟨_, congrArg (Option.map _) (List.getElem?_eq_getElem known), rfl⟩

/-- At the end of a run with workers, all connections have been closed. At rest
such a server is vacant or has closed down, and in both cases nothing is
pending. -/
theorem Scenario.closed_run {scenario : Scenario} (staffed : 0 < scenario.workers) :
    ∀ connection ∈ scenario.run.connections, connection.closed = 1 := by
  have orderly := scenario.passes_run.inOrder_of_passes
  have rests : scenario.run.isAtRest = true := by
    rw [run_eq]
    exact Server.isAtRest_settle _
  have quiet := (Sound.ready_of_isAtRest rests).1
  refine (orderly.processed_and_closed ?_).2
  rcases orderly.sound.vacant_or_closedDown quiet (orderly.workers_ne_nil staffed)
    with vacant | closed
  · exact vacant.pending_of_vacant quiet
  · exact closed.pending_of_closedDown quiet

/-! ## What a call is promised -/

/-- The connection at a position is sent this reply when it is closed. The
promise is stated of the books alone, so that it can be carried through their
effects. -/
def Books.Promise (index : Nat) (reply : String) (books : Books) : Prop :=
  ∃ connection, books.connections[index]? = some connection ∧
    (connection.closed = 0 ∨ connection.delivered = reply)

section Promise

variable {all : List Call} {index : Nat} {call : Call} {request : Request}

/-- A call over a connection that can carry the reply is promised the outcome of
its expression as long as it waits, and the promise is kept.

Only the processing of a task touches a connection. If it is the connection of
the call, then the task is that of the call, and what is delivered is the
outcome of the expression; the connections of other tasks are left alone. -/
theorem Effect.promise_after {books next : Books} (effect : Effect books next)
    (follow : books.Follow all) (known : all[index]? = some call)
    (heard : call.request? = some request) (carries : call.sendFault = none)
    (promise : books.Promise index (outcomeText (evaluate request.expression.toList))) :
    next.Promise index (outcomeText (evaluate request.expression.toList)) := by
  obtain ⟨connection, found, stands⟩ := promise
  have before (later : List Connection) :
      (books.connections ++ later)[index]? = some connection := by
    rw [List.getElem?_append_left (List.getElem?_eq_some_iff.mp found).1]
    exact found
  cases effect with
  | quiet => exact ⟨connection, found, stands⟩
  | turnAway latest closed => exact ⟨connection, before [latest], stands⟩
  | enter latest task undelivered unclosed last => exact ⟨connection, before [latest], stands⟩
  | assign task rest first => exact ⟨connection, found, stands⟩
  | perform task rest first =>
    refine ⟨_, (List.getElem?_modify ..).trans (congrArg _ found), ?_⟩
    by_cases here : task.connection = index
    · obtain ⟨other, present, own⟩ :=
        follow.tasks task (pending_perform first ▸ List.mem_cons_self)
      obtain rfl := Option.some.inj (known.symm.trans (here ▸ present))
      obtain rfl := Option.some.inj (own.request.symm.trans heard)
      have reply : (books.report task).delivered =
          delivery (outcomeText (evaluate task.request.expression.toList)) task.sendFault := rfl
      rw [own.sendFault, carries] at reply
      simp only [if_pos here]
      exact .inr reply
    · simp only [if_neg here]
      exact stands

/-- Whoever calls while the queue has room is promised whatever the outcome will
be: the connection is accepted and is not closed in the same action. -/
theorem Server.promise_step (server : Server) {later : List Thread}
    (running : server.ready = .acceptor :: later) (listening : server.listening = true) {wait : Int}
    {incoming : Except String (List UInt8)} {sendFault : Option String} {arrivals : List Arrival}
    (next : server.arrivals = .call wait incoming sendFault :: arrivals) {text : List Char}
    (heard : Wire.receive incoming = .ok text) (room : server.hasRoom = true) (reply : String) :
    server.step.books.Promise server.connections.length reply := by
  have acts : server.step = server.accept := by rw [step, running]
  have connections : server.step.connections =
      server.connections ++ [{ timeout := server.timeout }] := by
    rw [acts, accept_of_room listening next heard room, wakeForJob]
    split <;> rfl
  refine ⟨{ timeout := server.timeout }, ?_, .inl rfl⟩
  rw [books, connections]
  exact List.getElem?_concat_length

/-- At the end of a run with workers, a promise has been kept. It is carried
through all moves together with `Follows`, and in the end no connection is open
any more. -/
theorem Scenario.Passes.promise_delivered {scenario : Scenario} {server : Server}
    (staffed : 0 < scenario.workers) (passes : scenario.Passes server)
    (known : (calls scenario.arrivals)[index]? = some call) (heard : call.request? = some request)
    (carries : call.sendFault = none)
    (promise : server.books.Promise index (outcomeText (evaluate request.expression.toList))) :
    ∃ connection, scenario.run.connections[index]? = some connection ∧
      connection.delivered = outcomeText (evaluate request.expression.toList) := by
  obtain ⟨_, connection, found, stands⟩ := @Scenario.Passes.holds_at_end scenario
    (fun server => server.Follows (calls scenario.arrivals) ∧
      server.books.Promise index (outcomeText (evaluate request.expression.toList)))
    server passes ⟨passes.follows_calls, promise⟩
    (by
      rintro server ⟨follows, promise⟩
      exact ⟨follows.follows_requestStop, server.books_requestStop ▸ promise⟩)
    (by
      rintro server next orderly move ⟨follows, promise⟩
      exact ⟨follows.follows_after_move orderly.sound move,
        (orderly.sound.effect_of_move move).promise_after follows.books known heard carries
          promise⟩)
  refine ⟨connection, found, stands.resolve_left ?_⟩
  rw [Scenario.closed_run staffed connection (List.mem_of_getElem? found)]
  exact Nat.one_ne_zero

end Promise

end Service

namespace Keypad

open Service

/-- The service agrees with the keypad. A request from a client without a colon
in its name, for what was typed on a keypad, fits into what is received at once.
Then the service replies what the equals key shows, and books the task under the
name of the client without surrounding blanks.

A server that has nothing else to do does so at once. In a run with other calls,
a connection that is accepted while the queue has room has been sent what the
equals key shows when the run ends. It is sent when a worker with the task runs,
and the task is booked in the same action. Surrounding blanks make no difference
to the outcome of any expression.

Proof: the message decodes to itself and splits at its first colon, so that the
request holds the stripped expression, which evaluates like the typed one by
`evaluate_strip`. For a call among others, the action that accepts it makes a
promise about its connection, and `promise_delivered` keeps it. That the worker
has this very request is what `Follows` says of all tasks. -/
theorem service_replies_result (keypad : Keypad) {client : List Char} (colon : ':' ∉ client)
    (fits : (Wire.send (String.ofList (client ++ ':' :: keypad.typed))).length ≤
      Settings.service.receiveSize) :
    let message := Wire.send (String.ofList (client ++ ':' :: keypad.typed))
    let shown := (keypad.press .equals).1.result
    let name := String.ofList (Text.strip client)
    (∀ totals, (answer totals message).delivered = shown ∧
      ∃ time, (answer totals message).totals = totals.record name (.measured time)) ∧
    (∀ (scenario : Scenario) server later wait arrivals, 0 < scenario.workers →
      scenario.Passes server → server.ready = .acceptor :: later → server.listening = true →
        server.arrivals = .call wait (.ok message) none :: arrivals → server.hasRoom = true →
          ∃ connection, scenario.run.connections[server.connections.length]? = some connection ∧
            connection.delivered = shown) ∧
    (∀ (scenario : Scenario) server later index task, scenario.Passes server →
      server.ready = .worker index :: later → server.slot index = some (.task task) →
        (calls scenario.arrivals)[task.connection]? =
          some { incoming := .ok message, sendFault := none } →
          (∃ connection, server.step.connections[task.connection]? = some connection ∧
            connection.delivered = shown) ∧
          server.step.totals =
            server.totals.record name (.measured server.timing.milliseconds)) ∧
    ∀ expression, evaluate (Text.strip expression) = evaluate expression := by
  intro message shown name
  have asks : Request.ofText (String.ofList (client ++ ':' :: keypad.typed)).toList =
      { client := name, expression := String.ofList (Text.strip keypad.typed) } := by
    rw [String.toList_ofList]
    exact Request.ofText_append colon keypad.typed
  have outcome :
      outcomeText (evaluate (String.ofList (Text.strip keypad.typed)).toList) = shown := by
    rw [String.toList_ofList, evaluate_strip]
    rfl
  have heard := (request?_of_fits none fits).trans (congrArg some asks)
  refine ⟨?_, ?_, ?_, evaluate_strip⟩
  · intro totals
    obtain ⟨delivered, recorded⟩ := answer_of_fits totals fits asks
    exact ⟨delivered.trans outcome, recorded⟩
  · intro scenario server later wait arrivals staffed passes running listening next room
    have known := (passes.follows_calls.next_call next).1
    obtain ⟨connection, found, reply⟩ :=
      passes.passes_step.promise_delivered staffed known heard rfl
        (server.promise_step running listening next (Wire.receive_send fits) room _)
    exact ⟨connection, found, reply.trans outcome⟩
  · intro scenario server later index task passes running full known
    have orderly := passes.inOrder_of_passes
    obtain ⟨call, present, own⟩ :=
      passes.follows_calls.books.tasks task (orderly.sound.mem_pending_of_slot full)
    obtain rfl := Option.some.inj (present.symm.trans known)
    have request := Option.some.inj (own.request.symm.trans heard)
    obtain ⟨connection, delivers, reply⟩ := orderly.delivered_by_worker running full
    obtain ⟨_, _, totals⟩ := orderly.sound.keeps_working running full
    simp only [own.sendFault, request, delivery] at reply
    rw [request] at totals
    exact ⟨⟨connection, delivers, reply.trans outcome⟩, totals⟩

/-- A product behind a blank that is not ASCII, with a colon at its end. -/
def spaced : Keypad := { typed := ['\u2003', '6', '×', '7', ':'] }

/-- The message for what was typed, from a client with a blank before its
number. -/
def spacedMessage : List UInt8 :=
  Wire.send (String.ofList ([' ', '3'] ++ ':' :: spaced.typed))

/-- One worker, and the same call three times. -/
def echoes : Scenario :=
  { workers := 1
    capacity := 1
    timeout := 5
    timer := []
    stop := .drained
    shutdownFails := false
    arrivals := List.replicate 3 (.call 0 (.ok spacedMessage) none) }

/-- The product is replied to a single call, and to the first of three. Its
expression has a blank that is not ASCII before it and a colon at its end. -/
theorem spaced_product_is_replied :
    ':' ∉ [' ', '3'] ∧ spacedMessage.length ≤ Settings.service.receiveSize ∧
      (spaced.press .equals).1.result = "42.0" ∧
      (answer [] spacedMessage).delivered = "42.0" ∧
      ∃ connection, echoes.run.connections[0]? = some connection ∧
        connection.delivered = "42.0" := by
  have colon : ':' ∉ [' ', '3'] := by decide
  have fits : spacedMessage.length ≤ Settings.service.receiveSize := by decide +kernel
  have shown : (spaced.press .equals).1.result = "42.0" := by decide +kernel
  obtain ⟨alone, admitted, _⟩ := service_replies_result spaced colon fits
  refine ⟨colon, fits, shown, (alone []).1.trans shown, ?_⟩
  -- The acceptor runs after the worker.
  have passes : echoes.Passes (Server.steps 1 (Server.start echoes)) := .inr ⟨rfl, 1, rfl⟩
  obtain ⟨connection, found, reply⟩ :=
    admitted echoes _ [.dispatcher] 0 _ (by decide) passes rfl rfl rfl rfl
  exact ⟨connection, found, reply.trans shown⟩

end Keypad

end Reckon
