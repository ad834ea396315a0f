import Reckon.Proofs.Batch.Turn
import Reckon.Proofs.Double.ReadBack
import Reckon.Proofs.Text.Encoding
import Reckon.Proofs.Text.Field

/-!
# A request that is served

A request goes a long way: it is put together, encoded, cut, decoded, taken
apart and trimmed before its expression is evaluated, and the reply goes back in
the same manner. If the message fits into what is received at once, every stage
undoes what was done before, and the client reads the value that the evaluation
has. This holds over every link that serves, whatever its latency.
-/

namespace Reckon

/-! ## The way of a text -/

/-- A message that fits comes through: nothing of it is cut off, and decoding
undoes the encoding. -/
theorem Wire.receive_send {message : String}
    (fits : (Wire.send message).length ≤ Settings.service.receiveSize) :
    Wire.receive (.ok (Wire.send message)) = .ok message.toList := by
  have whole : (Wire.send message).take Settings.service.receiveSize = Wire.send message :=
    List.take_of_length_le fits
  have decoded : Text.Utf8.decode (Wire.send message) = .ok message.toList :=
    Text.Utf8.decode_encode message.toList
  unfold Wire.receive
  simp only [whole, decoded]

/-- Every outcome of an evaluation fits into a message. The text of a float is
short, whatever its value. -/
theorem length_send_outcomeText (outcome : Except EvalError Float) :
    (Wire.send (outcomeText outcome)).length ≤ Settings.service.receiveSize := by
  cases outcome with
  | error error =>
    have short : (Wire.send Settings.failure).length ≤ Settings.service.receiveSize := by
      decide +kernel
    exact short
  | ok value =>
    obtain ⟨among, length⟩ := Numeral.usual_characters value
    have ascii : ∀ c ∈ (Double.text value).toList, c.toNat < 0x80 := by
      rw [Double.text, String.toList_ofList]
      exact fun c member => (Numeral.of_mem_usual (among c member)).2.2.2
    have size : (Wire.send (Double.text value)).length = (Double.characters value).length := by
      rw [Wire.send, Text.Utf8.length_encode_of_ascii ascii, Double.text, String.toList_ofList]
    have room : Double.digitBound + 19 ≤ Settings.service.receiveSize := by decide
    exact size.trans_le (Nat.le_trans length room)

namespace Batch

/-- The text of an outcome stands for its value, and the word of failure for
none. A float is found again in its shortest text, so nothing is lost on the
way. -/
theorem replyValue?_outcomeText (outcome : Except EvalError Float) :
    replyValue? (outcomeText outcome) = outcome.toOption := by
  cases outcome with
  | error error =>
    have none : replyValue? Settings.failure = none := by decide +kernel
    exact none
  | ok value =>
    rw [outcomeText, replyValue?, Double.text, String.toList_ofList, Numeral.read?_characters]
    rfl

/-- A text that is neither the word of failure nor stands for a value is no
outcome. -/
theorem outcomeText_ne {text : String} (different : Settings.failure ≠ text)
    (none : replyValue? text = none) (outcome : Except EvalError Float) :
    outcomeText outcome ≠ text := by
  cases outcome with
  | error error => exact different
  | ok value =>
    intro same
    have numeral := replyValue?_outcomeText (.ok value)
    rw [same, none] at numeral
    cases numeral

theorem outcomeText_ne_rejection (outcome : Except EvalError Float) :
    outcomeText outcome ≠ Settings.rejection :=
  outcomeText_ne (by decide) (by decide +kernel) outcome

theorem outcomeText_ne_empty (outcome : Except EvalError Float) : outcomeText outcome ≠ "" :=
  outcomeText_ne (by decide) (by decide +kernel) outcome

end Batch

/-! ## The service -/

namespace Service

/-- A request is taken apart at the first colon, and both parts are stripped.
There may be more colons in the expression. -/
theorem Request.ofText_append {name : List Char} (colon : ':' ∉ name) (expression : List Char) :
    Request.ofText (name ++ ':' :: expression) =
      { client := String.ofList (Text.strip name)
        expression := String.ofList (Text.strip expression) } := by
  have before : ∀ c ∈ name, decide (c ≠ ':') = true := by
    rintro c member
    rw [decide_eq_true_eq]
    rintro rfl
    exact colon member
  have rest : (name ++ ':' :: expression).dropWhile (· ≠ ':') = ':' :: expression := by
    rw [List.dropWhile_append_of_pos before]
    rfl
  have first : (name ++ ':' :: expression).takeWhile (· ≠ ':') = name := by
    rw [List.takeWhile_append_of_pos before]
    simp
  unfold Request.ofText
  rw [rest]
  simp only
  rw [first]

theorem Request.ofText_named {name expression : List Char} (colon : ':' ∉ name)
    (bare : Text.strip name = name) (stripped : Text.strip expression = expression) :
    Request.ofText (name ++ ':' :: expression) =
      { client := String.ofList name, expression := String.ofList expression } := by
  rw [Request.ofText_append colon, bare, stripped]

/-- The service answers a message that fits with the outcome of the expression
in it, and records one task of the client that the message names. How long the
task took is not known beforehand. -/
theorem answer_of_fits (totals : Totals) {message : String} {request : Request}
    (fits : (Wire.send message).length ≤ Settings.service.receiveSize)
    (asks : Request.ofText message.toList = request) :
    (answer totals (Wire.send message)).delivered =
        outcomeText (evaluate request.expression.toList) ∧
      ∃ time : Float, (answer totals (Wire.send message)).totals =
        totals.record request.client (.measured time) := by
  unfold answer
  rw [Wire.receive_send fits]
  simp only [asks]
  exact ⟨rfl, _, rfl⟩

end Service

/-! ## The client -/

namespace Batch

theorem toList_requestMessage (number : Nat) (expression : String) :
    (requestMessage number expression).toList =
      Nat.toDigits 10 number ++ ':' :: expression.toList := by
  have shown : toString (number : Int) = toString number := rfl
  unfold requestMessage
  simp only [shown, Nat.toString_eq_ofList_toDigits, String.toList_append, String.toList_ofList,
    List.append_assoc]
  rfl

/-- The message of a numbered client is read as a request of this client for the
expression: the digits of its number contain no colon and no blank. -/
theorem ofText_requestMessage (number : Nat) {expression : String}
    (stripped : Text.strip expression.toList = expression.toList) :
    Service.Request.ofText (requestMessage number expression).toList =
      { client := toString number, expression } := by
  have digits : ∀ c ∈ Nat.toDigits 10 number, c.isDigit = true := fun c member =>
    Nat.isDigit_of_mem_toDigits (by decide) (by decide) member
  have colon : ':' ∉ Nat.toDigits 10 number := fun member => absurd (digits ':' member) (by decide)
  have bare : Text.strip (Nat.toDigits 10 number) = Nat.toDigits 10 number := by
    refine Text.trim_of_notPadding fun c member => ?_
    obtain ⟨least, most⟩ := Numeral.toNat_of_isDigit (digits c member)
    simp only [Text.isBlank, Bool.or_eq_false_iff, Bool.and_eq_false_iff, decide_eq_false_iff_not,
      beq_eq_false_iff_ne]
    omega
  rw [toList_requestMessage, Service.Request.ofText_named colon bare stripped,
    String.ofList_toList, Nat.toString_eq_ofList_toDigits]

/-- A link that serves: nothing fails on it, and the service is at its far end.
Nothing is said about its latency. -/
structure Link.Serves (link : Link) : Prop where
  connects : link.connectFault = none
  sends : link.sendFault = none
  receives : link.receiveFault = none
  reaches : link.farEnd = .service

namespace Network

/-- Every connection is served, the listed ones and all that follow them. -/
structure Serves (network : Network) : Prop where
  listed : ∀ link ∈ network.links, link.Serves
  last : network.lastLink.Serves

variable {network : Network}

theorem Serves.next_link_serves (serves : network.Serves) :
    (network.links.headD network.lastLink).Serves := by
  cases links : network.links with
  | nil => exact serves.last
  | cons link rest => exact serves.listed link (links ▸ List.mem_cons_self)

/-- What is left of a network that serves still serves, whatever its totals and
its clock. -/
theorem Serves.of_links {later : Network} (serves : network.Serves)
    (links : later.links = network.links.tail) (last : later.lastLink = network.lastLink) :
    later.Serves where
  listed link member := serves.listed link (List.mem_of_mem_tail (links ▸ member))
  last := last ▸ serves.last

/-- Over a link that serves, what comes back is what the service delivers, and
the totals of the service are those after its answer. -/
theorem exchange_of_serves (serves : network.Serves) (message : String) :
    (network.exchange message).1 = receiveText (.ok (Wire.send
        (Service.answer network.served (Wire.send message)).delivered)) ∧
      (network.exchange message).2.served =
        (Service.answer network.served (Wire.send message)).totals := by
  obtain ⟨connects, sends, receives, reaches⟩ := serves.next_link_serves
  simp only [exchange, connects, sends, receives, Option.or_none, reply, reaches, serve, wait,
    and_true]

/-- Asking for an expression leaves the service with the totals that the
exchange leaves, since the client writes to the journal only. -/
theorem served_ask (network : Network) (client : Int) (expression : String) :
    (network.ask client expression).2.served =
      (network.exchange (requestMessage client expression)).2.served := by
  have same := (network.exchange_write
    { client, reading := some network.reading, event := .requested expression }
    (requestMessage client expression)).2
  unfold ask
  simp only
  rw [← same]
  split <;> rfl

/-- Who asks for an expression over a link that serves gets the outcome of its
evaluation, and the service records one task more.

The message is cut, decoded and taken apart at the service, and the reply is
decoded at the client. Each of these stages undoes one of the other side, if the
message fits and the expression has no surrounding blanks. -/
theorem ask_of_serves (serves : network.Serves) {number : Nat} {expression : String}
    (fits : (Wire.send (requestMessage number expression)).length ≤ Settings.service.receiveSize)
    (stripped : Text.strip expression.toList = expression.toList) :
    (network.ask number expression).1.reply = outcomeText (evaluate expression.toList) ∧
      ∃ time : Float, (network.ask number expression).2.served =
        network.served.record (toString number) (.measured time) := by
  obtain ⟨delivered, time, recorded⟩ :=
    Service.answer_of_fits network.served fits (ofText_requestMessage number stripped)
  obtain ⟨received, served⟩ := exchange_of_serves serves (requestMessage number expression)
  have came : receiveText (.ok (Wire.send (outcomeText (evaluate expression.toList)))) =
      .ok (outcomeText (evaluate expression.toList)) := by
    rw [receiveText, Wire.receive_send (length_send_outcomeText _)]
    exact congrArg Except.ok String.ofList_toList
  refine ⟨?_, time, ?_⟩
  · rw [network.reply_ask, received, delivered, came]
    rfl
  · rw [network.served_ask, served, recorded]

end Network

end Batch

end Reckon
