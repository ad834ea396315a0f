import Reckon.Proofs.Batch.Rounds

/-!
# The limit of resends

A client resends a rejected expression until it is answered or as many resends
have been rejected as the plan allows; only then is the expression given up. For
a limit of at least one, the plan allows exactly as many resends as the limit
says. But the limit is compared only after a resend has been rejected, so that a
limit of zero allows one resend as well (`Plan.caps_limit_iff`).
-/

namespace Reckon.Batch

variable {plan : Plan} {expressions : List String} {turns : List Turn} {attempts : List Attempt}

/-- No resend is beyond those that the plan allows, and the client gives an
expression up when the last of them is rejected. Every turn of a history keeps
to the limit, because another one is due only while it is not reached. -/
theorem History.of_mem (history : History plan turns attempts)
    (limited : ∀ turn ∈ turns, turn.resend ≤ plan.resends) :
    ∀ attempt ∈ attempts, attempt.resend ≤ plan.resends ∧
      attempt.gaveUp = (attempt.exchange.isRejected && decide (plan.resends ≤ attempt.resend)) := by
  induction history with
  | done => exact nofun
  | taken turn turns exchange later rest ih =>
    intro attempt member
    rcases List.mem_cons.mp member with rfl | follows
    · exact ⟨limited turn List.mem_cons_self, rfl⟩
    · refine ih (fun next due => ?_) attempt follows
      rcases List.mem_append.mp due with waiting | again
      · exact limited next (List.mem_cons_of_mem turn waiting)
      · unfold Turn.again at again
        split at again
        · cases again
        · rename_i unsettled
          rw [List.mem_singleton.mp again]
          exact Accounts.resend_lt exchange (Bool.eq_false_iff.mpr unsettled)

/-- When no turn is left, the attempts at a position end with one that settles
it. Those before were rejected and left it open, and the last one bears their
number. -/
theorem Accounts.trail_eq (accounts : Accounts plan expressions attempts []) {position : Nat}
    (listed : position < expressions.length) :
    ∃ earlier last, trail attempts position = earlier ++ [last] ∧ last.settles = true ∧
      last.resend = earlier.length ∧ ∀ attempt ∈ earlier, attempt.settles = false := by
  have once : position ∈ settled attempts := by
    have every := accounts.once
    rw [List.map_nil, List.append_nil] at every
    exact every.mem_iff.mpr (List.mem_range.mpr listed)
  obtain ⟨last, found, rfl⟩ := List.mem_map.mp once
  obtain ⟨made, settles⟩ := List.mem_filter.mp found
  obtain ⟨earlier, parts⟩ := List.getLast?_eq_some_iff.mp (accounts.getLast?_trail made settles)
  refine ⟨earlier, last, parts, settles, ?_, ?_⟩
  · have numbered := accounts.numbered last.position
    rw [parts, List.map_append, List.length_append, List.length_singleton,
      List.range_succ] at numbered
    simpa using (List.append_inj' numbered rfl).2
  · intro attempt before
    have ordered := accounts.pairwise_trail last.position
    rw [parts] at ordered
    exact (List.pairwise_append.mp ordered).2.2 attempt before last List.mem_cons_self

/-- The client resends no expression more than so many times after its first
attempt, and gives it up if and only if the first attempt and so many resends
were all rejected. The number is free here, in order to compare what the plan
allows with its limit. -/
def Plan.Caps (plan : Plan) (cap : Nat) (network : Network) (expressions : List String) : Prop :=
  ∀ position < expressions.length,
    let tried := trail (plan.settle network expressions).attempts position
    tried.length ≤ cap + 1 ∧
      ((∃ attempt ∈ tried, attempt.gaveUp = true) ↔
        tried.map (·.exchange.isRejected) = List.replicate (cap + 1) true)

/-- The client keeps to the resends that its plan allows. The last attempt at a
position settles it: if the client gave up, that was at the last resend, with
all attempts before it rejected; if not, it was answered. -/
theorem Plan.caps_resends (plan : Plan) (network : Network) (expressions : List String) :
    plan.Caps plan.resends network expressions := by
  intro position listed
  obtain ⟨_, course⟩ := plan.course_settle network expressions
  have bounds := (plan.history_settle network expressions).of_mem fun turn member =>
    (of_mem_unasked 0 expressions turn member).1 ▸ Nat.zero_le plan.resends
  obtain ⟨earlier, last, parts, settles, number, unsettled⟩ := course.accounts.trail_eq listed
  have final : last ∈ trail (plan.settle network expressions).attempts position := by simp [parts]
  obtain ⟨bound, decides⟩ := bounds last (List.mem_filter.mp final).1
  have left : ∀ attempt ∈ earlier, attempt.exchange.isRejected = true ∧ attempt.gaveUp = false := by
    intro attempt before
    simpa [Attempt.settles, Attempt.isAnswered] using unsettled attempt before
  have gaveUp : (∃ attempt ∈ earlier ++ [last], attempt.gaveUp = true) ↔ last.gaveUp = true := by
    constructor
    · rintro ⟨attempt, member, gaveUp⟩
      rcases List.mem_append.mp member with before | same
      · cases (left attempt before).2.symm.trans gaveUp
      · rwa [← List.mem_singleton.mp same]
    · exact fun gaveUp => ⟨last, by simp, gaveUp⟩
  have rejected : (earlier ++ [last]).map (·.exchange.isRejected) =
      List.replicate (plan.resends + 1) true ↔
        last.exchange.isRejected = true ∧ earlier.length = plan.resends := by
    have before : earlier.map (·.exchange.isRejected) = List.replicate earlier.length true :=
      List.map_eq_replicate_iff.mpr fun attempt member => (left attempt member).1
    rw [List.map_append, before, List.replicate_succ']
    constructor
    · intro all
      obtain ⟨counts, same⟩ := List.append_inj' all rfl
      exact ⟨List.singleton_inj.mp same, by simpa using congrArg List.length counts⟩
    · rintro ⟨rejected, count⟩
      rw [count, List.map_singleton, rejected]
  simp only [parts]
  constructor
  · rw [List.length_append, List.length_singleton]
    omega
  · rw [gaveUp, rejected, decides, Bool.and_eq_true, decide_eq_true_eq]
    exact and_congr_right fun _ => by omega

/-- A network that rejects every request, however often it is asked. -/
def rejectingNetwork : Network :=
  { links := [], lastLink := { farEnd := .fixed (Wire.send Settings.rejection) } }

theorem isRejected_of_rejecting {network : Network} (links : network.links = [])
    (lastLink : network.lastLink = rejectingNetwork.lastLink) (client : Int) (expression : String) :
    (network.ask client expression).1.isRejected = true := by
  have received : Network.receiveText (.ok (Wire.send Settings.rejection)) =
      .ok Settings.rejection := by decide +kernel
  rw [Exchange.isRejected, Network.reply_ask]
  simp [Network.exchange, Network.reply, links, lastLink, rejectingNetwork, received,
    Except.toOption]

/-- A client whose limit is below one still resends what has been rejected: over
a network that rejects everything, an expression is sent twice. -/
theorem Plan.not_caps_of_limit_lt (plan : Plan) (below : plan.limit < 1) :
    ¬plan.Caps plan.limit.toNat rejectingNetwork ["1+1"] := by
  intro capped
  have none : plan.limit.toNat = 0 := by omega
  have one : plan.resends = 1 := by
    rw [Plan.resends, none]
    rfl
  obtain ⟨_, course⟩ := plan.course_settle rejectingNetwork ["1+1"]
  have rejected : ∀ attempt ∈ (plan.settle rejectingNetwork ["1+1"]).attempts,
      attempt.exchange.isRejected = true := by
    intro attempt member
    obtain ⟨index, found⟩ := List.getElem?_of_mem member
    obtain ⟨before, links, lastLink, heard⟩ := course.heard index attempt found
    rw [heard]
    exact isRejected_of_rejecting (by rw [links]; exact List.drop_nil) lastLink _ _
  have listed : 0 < ["1+1"].length := by decide
  obtain ⟨earlier, last, parts, settles, _, _⟩ := course.accounts.trail_eq listed
  have final : last ∈ trail (plan.settle rejectingNetwork ["1+1"]).attempts 0 := by simp [parts]
  have gaveUp : last.gaveUp = true := by
    simpa [Attempt.settles, Attempt.isAnswered, rejected last (List.mem_filter.mp final).1]
      using settles
  have twice := (plan.caps_resends rejectingNetwork ["1+1"] 0 listed).2.mp
    ⟨last, final, gaveUp⟩
  have short := (capped 0 listed).1
  have size := congrArg List.length twice
  rw [List.length_map, List.length_replicate] at size
  omega

/-- A client resends every expression at most as often as its plan allows, and
gives it up if and only if its first attempt and all these resends were
rejected. This holds with the limit of the plan in place of what it allows, for
every network and all expressions, if and only if the limit is at least one.

Proof: the first part reads the attempts at one position off the accounts of the
whole run (`Accounts.trail_eq`). The plan allows the greater of one and its
limit, so the two agree from one on. Below it a network that rejects everything
tells them apart (`Plan.not_caps_of_limit_lt`). -/
theorem Plan.caps_limit_iff (plan : Plan) :
    (∀ network expressions, plan.Caps plan.resends network expressions) ∧
      ((∀ network expressions, plan.Caps plan.limit.toNat network expressions) ↔
        1 ≤ plan.limit) := by
  refine ⟨plan.caps_resends, ?_, ?_⟩
  · intro capped
    by_contra below
    exact plan.not_caps_of_limit_lt (by omega) (capped rejectingNetwork ["1+1"])
  · intro positive network expressions
    have same : plan.resends = plan.limit.toNat := by
      rw [Plan.resends]
      omega
    exact same ▸ plan.caps_resends network expressions

/-- A limit of zero is not kept: an expression that is rejected is resent
once. -/
theorem zero_limit_not_kept :
    ¬∀ (plan : Plan) (network : Network) (expressions : List String), 0 ≤ plan.limit →
      plan.Caps plan.limit.toNat network expressions := by
  intro always
  let plan : Plan := { client := 1, limit := 0, delay := 0 }
  exact plan.not_caps_of_limit_lt (by decide) (always plan rejectingNetwork ["1+1"] (by decide))

end Reckon.Batch
