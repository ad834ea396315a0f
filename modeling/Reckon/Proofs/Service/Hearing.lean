import Reckon.Proofs.Service.Calls
import Reckon.Proofs.Service.Survival
import Reckon.Proofs.Text.Cut

/-!
# What the server reads

A caller may send any bytes, and of these only so many are read. They are taken
for a request just if they are the encoding of a text, and then this text is the
request: `Wire.receive_eq_ok_iff`. A text that is too long is cut. If the cut
falls between two characters, the longest prefix that fits is the request;
otherwise the cut falls inside a character, and there is no request at all.

A call without a request leaves nothing behind but its closed connection and an
entry of the journal, and the acceptor goes on to the next call. Nobody touches
the connection again, so it has been closed once when the run ends:
`Scenario.Passes.closed_connection_final`. What the acceptor has read in a run
is what the calls have brought, in their order:
`Scenario.Passes.heard_eq_accepted`.
-/

namespace Reckon

open Text

/-! ## Bytes -/

namespace Wire

variable {bytes : List UInt8} {text : List Char}

/-- What is received is the text that the bytes encode, and nothing is received
if there is none. Only the bytes up to the limit are looked at. -/
theorem receive_eq_ok_iff :
    receive (.ok bytes) = .ok text ↔
      bytes.take Settings.service.receiveSize = Utf8.encode text := by
  rw [← Utf8.decode_eq_ok_iff, receive]
  cases Utf8.decode (bytes.take Settings.service.receiveSize) <;> simp

/-- A text that is cut between two characters is received up to there, which is
its longest prefix that fits. -/
theorem receive_of_cutBetween (between : Utf8.CutBetween Settings.service.receiveSize text) :
    ∃ kept, Utf8.IsLongestFit Settings.service.receiveSize text kept ∧
      receive (.ok (Utf8.encode text)) = .ok kept := by
  obtain ⟨kept, longest, cut⟩ := Utf8.take_encode_of_cutBetween between
  exact ⟨kept, longest, receive_eq_ok_iff.mpr cut⟩

/-- A text that is cut inside a character is refused from the first byte of this
character on. That is one of the last three bytes before the cut, since no
character has more than four. -/
theorem receive_of_not_cutBetween (inside : ¬Utf8.CutBetween Settings.service.receiveSize text) :
    ∃ before c after, text = before ++ c :: after ∧ 1021 ≤ (Utf8.encode before).length ∧
      (Utf8.encode before).length ≤ 1023 ∧
      1024 < (Utf8.encode before).length + (Utf8.encodeChar c).length ∧
      receive (.ok (Utf8.encode text)) =
        .error (.undecodable (Utf8.cutInside (Utf8.encode before).length
          (Settings.service.receiveSize - (Utf8.encode before).length) c)) := by
  obtain ⟨before, c, after, rfl, below, above⟩ := Utf8.exists_split_char (by decide) inside
  have size : Settings.service.receiveSize = 1024 := rfl
  have most := (Utf8.length_encodeChar c).2
  have refused := Utf8.decode_take_encode below above after
  refine ⟨before, c, after, rfl, by omega, by omega, above, ?_⟩
  simp only [receive, refused]

end Wire

namespace Service

open Service.Sequential (Call)

/-! ## Requests that have been read -/

/-- The request that the acceptor has read in an event; it is queued or
rejected. -/
def Event.heard? : Event → Option Request
  | .queued request => some request
  | .rejected request => some request
  | _ => none

theorem heard_process (totals : Totals) (request : Request) (timing : Timing)
    (fault : Option String) :
    (process totals request timing fault).events.filterMap Event.heard? = [] := by
  cases fault <;> cases outcome : evaluate request.expression.toList <;>
    simp only [process, outcome, failureEvents, lossEvents] <;> rfl

/-- A move accepts the next call and reads the request that it brings, or it
accepts no call and reads nothing. -/
theorem Move.heard_after {server next : Server} (move : Move server next) :
    (next.connections.length = server.connections.length ∧
      next.requests Event.heard? = server.requests Event.heard?) ∨
    ∃ wait incoming sendFault arrivals,
      server.arrivals = .call wait incoming sendFault :: arrivals ∧
      next.connections.length = server.connections.length + 1 ∧
      next.requests Event.heard? = server.requests Event.heard? ++
        (Call.request? { incoming, sendFault }).toList := by
  have noted (server : Server) (events : List Event) := requests_noteAll server Event.heard? events
  have silent {base : Server} (events : List Event) (quiet : events.filterMap Event.heard? = []) :
      (base.noteAll events).requests Event.heard? = base.requests Event.heard? := by
    rw [noted, quiet, List.append_nil]
  -- The acceptor accepts in three moves. No other move writes an event of a request that is read.
  cases move with
  | @drop later wait incoming sendFault arrivals fault running listening next faulty =>
    refine .inr ⟨wait, incoming, sendFault, arrivals, next, List.length_append, ?_⟩
    rw [Call.request?, faulty]
    exact noted _ [.noRequest _ fault]
  | @reject later wait incoming sendFault arrivals text running listening next heard full =>
    refine .inr ⟨wait, incoming, sendFault, arrivals, next, List.length_append, ?_⟩
    rw [Call.request?, heard, noted]
    cases sendFault <;> rfl
  | @enter later wait incoming sendFault arrivals text running listening next heard room notified =>
    refine .inr ⟨wait, incoming, sendFault, arrivals, next, List.length_append, ?_⟩
    rw [Call.request?, heard]
    exact noted _ [.queued _]
  | retire running silence => exact .inl ⟨rfl, silent [.acceptorStopped] rfl⟩
  | take running free front notified => exact .inl ⟨rfl, silent [.taken _] rfl⟩
  | place running holds found idle asleep => exact .inl ⟨rfl, silent [.assigned _] rfl⟩
  | stall events running holds busy all =>
    refine .inl ⟨rfl, silent events (List.filterMap_eq_nil_iff.mpr ?_)⟩
    intro event member
    rw [all event member]
    rfl
  | conclude running dismisses all => exact .inl ⟨rfl, silent [.dispatcherStopped] rfl⟩
  | work running found given notified =>
    exact .inl ⟨List.length_modify .., silent _ (heard_process ..)⟩
  | _ => exact .inl ⟨rfl, rfl⟩

/-- The requests that have been read are those of the calls that have been
accepted, in their order. The induction is on the moves of the run. -/
theorem Scenario.Passes.heard_eq_accepted {scenario : Scenario} {server : Server}
    (passes : scenario.Passes server) :
    server.requests Event.heard? =
      ((calls scenario.arrivals).take server.connections.length).filterMap Call.request? := by
  refine (@Passes.holds_of_moves scenario (fun server => server.Follows (calls scenario.arrivals) ∧
    server.requests Event.heard? = ((calls scenario.arrivals).take
      server.connections.length).filterMap Call.request?) server passes ⟨.follows_start scenario,
        rfl⟩ ?_
      ?_).2
  · rintro server ⟨follows, heard⟩
    exact ⟨follows.follows_requestStop, heard⟩
  · rintro server next orderly move ⟨follows, heard⟩
    refine ⟨follows.follows_after_move orderly.sound move, ?_⟩
    rcases move.heard_after
      with ⟨same, nothing⟩ | ⟨wait, incoming, sendFault, arrivals, ahead, longer, read⟩
    · rw [same, nothing, heard]
    · rw [longer, read, heard, List.take_add_one, (follows.next_call ahead).1,
        List.filterMap_append]
      rfl

/-! ## A connection that has been closed -/

/-- A connection that has been closed once is not touched again, because no task
of it is left, and only a task would touch it. -/
theorem Effect.closed_connection_kept {books next : Books} (effect : Effect books next)
    (balanced : books.Balanced) {index : Nat} {connection : Connection}
    (found : books.connections[index]? = some connection) (closed : connection.closed = 1) :
    next.connections[index]? = some connection := by
  have before (later : List Connection) :
      (books.connections ++ later)[index]? = some connection := by
    rw [List.getElem?_append_left (List.getElem?_eq_some_iff.mp found).1]
    exact found
  cases effect with
  | quiet => exact found
  | turnAway latest once => exact before [latest]
  | enter latest task undelivered unclosed last => exact before [latest]
  | assign task rest first => exact found
  | perform task rest first =>
    have once := balanced.closedOnce index connection found
    have other : task.connection ≠ index := by
      intro same
      have positive : 0 < books.pending.countP (·.connection = index) :=
        List.countP_pos_iff.mpr ⟨task, pending_perform first ▸ List.mem_cons_self,
          by simpa using same⟩
      omega
    exact (List.getElem?_modify_ne _ _ other).trans found

theorem Scenario.Passes.closed_connection_final {scenario : Scenario} {server : Server}
    (passes : scenario.Passes server) {index : Nat} {connection : Connection}
    (found : server.connections[index]? = some connection) (closed : connection.closed = 1) :
    scenario.run.connections[index]? = some connection := by
  refine @Passes.holds_at_end scenario
    (fun server => server.connections[index]? = some connection) server passes found
    (fun _ kept => kept) ?_
  intro server next orderly move kept
  exact (orderly.sound.effect_of_move move).closed_connection_kept orderly.balanced kept closed

/-! ## The next call -/

/-- A text has been read from the next call: it is a request, which enters the
queue if there is room and is rejected otherwise. -/
structure Server.Reads (server : Server) (sendFault : Option String) (text : List Char)
    (next : Server) : Prop where
  heard : next.requests Event.heard? = server.requests Event.heard? ++ [Request.ofText text]
  queued : server.hasRoom = true →
    next.queue = server.queue ++ [.task (server.taskFor sendFault text)]
  rejected : server.hasRoom = false → next.queue = server.queue

/-- The next call has brought no request: its connection is closed without a
reply, and the journal says why. -/
structure Server.GivesUp (server : Server) (moment : Int) (fault : Wire.Fault) (next : Server) :
    Prop where
  unheard : next.requests Event.heard? = server.requests Event.heard?
  closed : next.connections = server.connections ++ [server.connection "" 1]
  queue : next.queue = server.queue
  totals : next.totals = server.totals
  logged : next.log = server.log ++
    [{ elapsed := moment
       event := .noRequest (callerAddress (server.connections.length + 1)) fault }]

section Next

variable {server : Server} {later : List Thread} {wait : Int}
  {incoming : Except String (List UInt8)} {sendFault : Option String} {arrivals : List Arrival}
  {text : List Char} {fault : Wire.Fault}
  (running : server.ready = .acceptor :: later) (listening : server.listening = true)
  (next : server.arrivals = .call wait incoming sendFault :: arrivals)

include running listening next

/-- The acceptor takes a text that it has received for a request. Whether this
enters the queue depends on the room there only. -/
theorem Server.reads_of_receive (received : Wire.receive incoming = .ok text) :
    server.Reads sendFault text server.step := by
  have acts : server.step = server.accept := by rw [Server.step, running]
  have noted (server : Server) (events : List Event) := requests_noteAll server Event.heard? events
  cases room : server.hasRoom with
  | true =>
    rw [acts, accept_of_room listening next received room, wakeForJob]
    refine ⟨?_, ?_, fun full => Bool.noConfusion (room.symm.trans full)⟩
    · split <;> exact noted _ [.queued _]
    · intro _
      split <;> rfl
  | false =>
    rw [acts, accept_of_full listening next received room, respond]
    refine ⟨?_, fun free => Bool.noConfusion (room.symm.trans free), fun _ => rfl⟩
    refine (noted (server.takeCall wait arrivals) _).trans ?_
    cases sendFault <;> rfl

/-- The acceptor gives a call up that brings no request, and goes on. Neither
queue nor totals are touched. -/
theorem Server.givesUp_of_receive (faulty : Wire.receive incoming = .error fault) :
    server.GivesUp (server.elapsed + wait) fault server.step := by
  have acts : server.step = server.accept := by rw [Server.step, running]
  rw [acts, accept_of_fault listening next faulty]
  refine ⟨?_, ?_, rfl, rfl, rfl⟩
  · have noted :=
      requests_noteAll
        ((server.takeCall wait arrivals).close server.connections.length "") Event.heard?
        [.noRequest (callerAddress (server.connections.length + 1)) fault]
    exact noted.trans (List.append_nil _)
  · exact modify_append_last server.connections { timeout := server.timeout } _

end Next

/-- A server of a run meets a call. If the bytes that it reads are the encoding
of a text, this very text is taken for a request; if they are not, the call is
dropped: its connection is closed, once and without a reply, and neither the
queue nor the totals change. In either case the acceptor goes on to the next
arrival.

If a text has been sent as a whole, the longest prefix that fits is read when
the cut falls behind the text or between two of its characters. When it falls
inside a character, the call is dropped because the data ends there, and the
journal names the first byte of this character.

No requests are read in a run but those of calls, each once and in their order.

Proof: decoding accepts encodings and nothing else (`receive_eq_ok_iff`), and a
text that is cut inside a character is refused where this character begins
(`receive_of_not_cutBetween`). What the acceptor does with the answer is a
single action. That the connection stays closed once is shown for all effects
(`Effect.closed_connection_kept`), and that the requests read are those of the
calls accepted for all moves (`Move.heard_after`). -/
theorem Scenario.Passes.hears_texts_only {scenario : Scenario} {server : Server}
    (passes : scenario.Passes server) {later : List Thread}
    (running : server.ready = .acceptor :: later) (listening : server.listening = true) {wait : Int}
    {bytes : List UInt8} {sendFault : Option String} {arrivals : List Arrival}
    (next : server.arrivals = .call wait (.ok bytes) sendFault :: arrivals) :
    let size := Settings.service.receiveSize
    let drops := fun error : Utf8.Error =>
      server.GivesUp (server.elapsed + wait) (.undecodable error) server.step ∧
        scenario.run.connections[server.connections.length]? = some (server.connection "" 1)
    (∀ text, Wire.receive (.ok bytes) = .ok text ↔ bytes.take size = Utf8.encode text) ∧
    (∀ text, bytes.take size = Utf8.encode text → server.Reads sendFault text server.step) ∧
    ((∀ text, bytes.take size ≠ Utf8.encode text) → ∃ error, drops error) ∧
    (∀ text, bytes = Utf8.encode text →
      (Utf8.CutBetween size text → ∃ kept, Utf8.IsLongestFit size text kept ∧
        Wire.receive (.ok bytes) = .ok kept ∧ server.Reads sendFault kept server.step) ∧
      (¬Utf8.CutBetween size text → ∃ before c after, text = before ++ c :: after ∧
        1021 ≤ (Utf8.encode before).length ∧ (Utf8.encode before).length ≤ 1023 ∧
        1024 < (Utf8.encode before).length + (Utf8.encodeChar c).length ∧
        ∃ error, error.start = (Utf8.encode before).length ∧
          error.length = size - (Utf8.encode before).length ∧
          error.first ∈ (Utf8.encodeChar c).head? ∧
          error.cause.message = "unexpected end of data" ∧ drops error)) ∧
    (∃ woken, server.step.ready = .acceptor :: (later ++ woken)) ∧
    server.step.listening = true ∧ server.step.arrivals = arrivals ∧
    scenario.run.requests Event.heard? = ((calls scenario.arrivals).take
      scenario.run.connections.length).filterMap Call.request? := by
  intro size drops
  have reads (text : List Char) (received : Wire.receive (.ok bytes) = .ok text) :
      server.Reads sendFault text server.step :=
    Server.reads_of_receive running listening next received
  have dropped (error : Utf8.Error)
      (faulty : Wire.receive (.ok bytes) = .error (.undecodable error)) : drops error := by
    have givesUp := Server.givesUp_of_receive running listening next faulty
    refine ⟨givesUp, passes.passes_step.closed_connection_final ?_ rfl⟩
    rw [givesUp.closed]
    exact List.getElem?_concat_length
  obtain ⟨goesOn, _, listens, ahead, _⟩ :=
    passes.inOrder_of_passes.sound.keeps_accepting running listening next
  refine ⟨fun _ => Wire.receive_eq_ok_iff, ?_, ?_, ?_, goesOn, listens, ahead,
    scenario.passes_run.heard_eq_accepted⟩
  · intro text same
    exact reads text (Wire.receive_eq_ok_iff.mpr same)
  · intro none
    cases decoded : Utf8.decode (bytes.take size) with
    | ok text => exact absurd (Utf8.decode_eq_ok_iff.mp decoded) (none text)
    | error error => exact ⟨error, dropped error (by simp only [Wire.receive, size, decoded])⟩
  · rintro text rfl
    constructor
    · intro between
      obtain ⟨kept, longest, received⟩ := Wire.receive_of_cutBetween between
      exact ⟨kept, longest, received, reads kept received⟩
    · intro inside
      obtain ⟨before, c, after, same, low, high, split, refused⟩ :=
        Wire.receive_of_not_cutBetween inside
      obtain ⟨first, rest, _, shape, _, _⟩ := Utf8.exists_lead c
      refine ⟨before, c, after, same, low, high, split, _, rfl, rfl, ?_, rfl, dropped _ refused⟩
      rw [Utf8.cutInside, shape]
      rfl

/-- One worker and a call whose text is cut in the middle of its last
character. -/
def splitCall : Scenario :=
  { workers := 1
    capacity := 0
    timeout := 5
    timer := []
    stop := .never
    shutdownFails := false
    arrivals := [.call 0 (.ok (Utf8.encode (List.replicate 1023 '1' ++ ['é']))) none] }

/-- A call whose last character is split is dropped, and its connection has been
closed once when the run ends. -/
theorem splitCall_is_dropped :
    splitCall.Passes (Server.steps 1 (Server.start splitCall)) ∧
      splitCall.run.connections[0]? = some { timeout := 5, delivered := "", closed := 1 } := by
  have passes : splitCall.Passes (Server.steps 1 (Server.start splitCall)) := .inl ⟨1, rfl⟩
  have length : (Utf8.encode (List.replicate 1023 '1')).length = 1023 := by
    rw [Utf8.length_encode_of_ascii, List.length_replicate]
    intro c member
    rw [List.eq_of_mem_replicate member]
    decide
  have inside : ¬Utf8.CutBetween Settings.service.receiveSize (List.replicate 1023 '1' ++ ['é']) :=
    Utf8.not_cutBetween (by rw [length]; decide) (by rw [length]; decide) []
  obtain ⟨_, _, _, texts, _⟩ := passes.hears_texts_only rfl rfl rfl
  obtain ⟨_, _, _, _, _, _, _, _, _, _, _, _, _, closed⟩ := (texts _ rfl).2 inside
  exact ⟨passes, closed⟩

end Service

end Reckon
