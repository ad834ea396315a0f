import Mathlib.Data.List.Perm.Basic
import Mathlib.Data.List.Range
import Reckon.Batch.Client

/-!
# Taking turns

A client goes through its expressions in two loops, one over the file and one
over what has been set aside. Seen as a queue of *turns*, the two are one: the
first turn is taken, and if the attempt does not settle its expression, another
turn for it joins at the end. The expressions that have not been asked for yet
stand in front, since the client sets nothing aside before them.

What one turn does to the history of attempts is `Takes`, and it is the same for
both loops; together they take one turn after another until none is left, which
is `TakesAll`. What a turn preserves is `Accounts`: every position of the file
has been settled once or is due once, and nothing that has been settled is asked
for again.
-/

namespace Reckon.Batch

open scoped Weight

/-- An attempt that is due, with the number of resends that it will bear. -/
structure Turn where
  position : Nat
  expression : String
  resend : Nat

/-- The attempt made when it is the turn of an expression. The client gives the
expression up if the attempt is rejected and no resend is left. -/
def Turn.attempt (plan : Plan) (turn : Turn) (exchange : Exchange) : Attempt :=
  { position := turn.position
    expression := turn.expression
    resend := turn.resend
    exchange
    gaveUp := exchange.isRejected && decide (plan.resends ≤ turn.resend) }

/-- The attempt settles its expression: it was answered, or the client gave the
expression up. -/
def Attempt.settles (attempt : Attempt) : Bool :=
  attempt.isAnswered || attempt.gaveUp

/-- The turn that follows an attempt, if the expression is not settled. It is a
list of at most one turn, to be appended to the queue. -/
def Turn.again (plan : Plan) (turn : Turn) (exchange : Exchange) : List Turn :=
  if (turn.attempt plan exchange).settles then [] else [{ turn with resend := turn.resend + 1 }]

def Pending.turn (item : Pending) : Turn :=
  { position := item.position, expression := item.expression, resend := item.resends + 1 }

/-- The turns of expressions that have not been asked for, whose positions start
at the given one. -/
def unasked (position : Nat) : List String → List Turn
  | [] => []
  | expression :: rest => { position, expression, resend := 0 } :: unasked (position + 1) rest

/-- The attempts at one position, in the order in which they were made. -/
def trail (attempts : List Attempt) (position : Nat) : List Attempt :=
  attempts.filter fun attempt => attempt.position = position

/-- The positions that have been settled, in the order in which they were. -/
def settled (attempts : List Attempt) : List Nat :=
  (attempts.filter Attempt.settles).map (·.position)

/-! ## One turn -/

/-- The client takes a turn. Nothing is said about the clock and the journal,
which differ between the two loops. -/
structure Takes (plan : Plan) (turn : Turn) (before after : Progress) : Prop where
  /-- There is one attempt more. -/
  attempts : after.attempts =
    before.attempts ++ [turn.attempt plan (before.network.ask plan.client turn.expression).1]
  /-- If that does not settle the expression, another turn joins at the end. -/
  pending : after.pending.map Pending.turn =
    before.pending.map Pending.turn ++
      turn.again plan (before.network.ask plan.client turn.expression).1
  /-- One link has been used. -/
  links : after.network.links = before.network.links.tail
  lastLink : after.network.lastLink = before.network.lastLink

theorem Network.links_reply (network : Network) (link : Link) (message : String) :
    (network.reply link message).2.links = network.links ∧
      (network.reply link message).2.lastLink = network.lastLink := by
  unfold reply
  split <;> exact ⟨rfl, rfl⟩

/-- An exchange uses one link. -/
theorem Network.links_exchange (network : Network) (message : String) :
    (network.exchange message).2.links = network.links.tail ∧
      (network.exchange message).2.lastLink = network.lastLink := by
  unfold exchange
  simp only
  split
  · exact ⟨rfl, rfl⟩
  · split
    · exact ⟨rfl, rfl⟩
    · exact links_reply _ _ _

theorem Network.links_ask (network : Network) (client : Int) (expression : String) :
    (network.ask client expression).2.links = network.links.tail ∧
      (network.ask client expression).2.lastLink = network.lastLink := by
  unfold ask
  simp only
  split <;> exact links_exchange _ _

/-- What is in the journal has no influence on an exchange: the client writes
that it asks before it does. -/
theorem Network.exchange_write (network : Network) (entry : Entry) (message : String) :
    ((network.write entry).exchange message).1 = (network.exchange message).1 ∧
      ((network.write entry).exchange message).2.served =
        (network.exchange message).2.served := by
  unfold exchange
  simp only [write, wait]
  split
  · exact ⟨rfl, rfl⟩
  · split
    · exact ⟨rfl, rfl⟩
    · unfold reply
      split <;> exact ⟨rfl, rfl⟩

/-- The reply that a client notes is what came through, or empty if nothing
did. -/
theorem Network.reply_ask (network : Network) (client : Int) (expression : String) :
    (network.ask client expression).1.reply =
      ((network.exchange (requestMessage client expression)).1.toOption).getD "" := by
  have same := (network.exchange_write
    { client, reading := some network.reading, event := .requested expression }
    (requestMessage client expression)).1
  unfold ask
  simp only
  rw [← same]
  split <;> rename_i came <;> rw [came] <;> rfl

namespace Progress

variable (progress : Progress) (plan : Plan)

/-- Every plan allows a resend, so the first rejection never settles an
expression. -/
theorem resends_pos : 0 < plan.resends :=
  Nat.le_max_left 1 _

/-- The first attempt at an expression takes its turn. Here the client sets
aside what is rejected without looking at the limit, which comes to the same
(`resends_pos`). -/
theorem takes_askFirst (position : Nat) (expression : String) :
    Takes plan { position, expression, resend := 0 } progress
      (askFirst plan progress position expression) := by
  have allowed := resends_pos plan
  obtain ⟨links, lastLink⟩ := progress.network.links_ask plan.client expression
  cases rejected : (progress.network.ask plan.client expression).1.isRejected with
  | true =>
    refine ⟨?_, ?_, ?_, ?_⟩ <;>
      simp [askFirst, ask, rejected, Turn.attempt, Turn.again, Attempt.settles, Attempt.isAnswered,
        Pending.turn, pause, note, setAside, remember, Network.wait, Network.write, links, lastLink]
    all_goals omega
  | false =>
    refine ⟨?_, ?_, ?_, ?_⟩ <;>
      simp [askFirst, ask, rejected, Turn.attempt, Turn.again, Attempt.settles, Attempt.isAnswered,
        pause, note, remember, Network.wait, Network.write, links, lastLink]

/-- Another attempt at an expression takes its turn. A rejected one is given up
or set aside again behind all others, just as the turn says. -/
theorem takes_askAgain (item : Pending) :
    Takes plan item.turn progress (askAgain plan progress item) := by
  obtain ⟨links, lastLink⟩ := progress.network.links_ask plan.client item.expression
  cases rejected : (progress.network.ask plan.client item.expression).1.isRejected with
  | true =>
    by_cases last : plan.resends ≤ item.resends + 1
    all_goals
      refine ⟨?_, ?_, ?_, ?_⟩ <;>
        simp [askAgain, ask, rejected, last, Turn.attempt, Turn.again, Attempt.settles,
          Attempt.isAnswered, Pending.turn, pause, note, setAside, remember, Network.wait,
          Network.write, links, lastLink]
  | false =>
    refine ⟨?_, ?_, ?_, ?_⟩ <;>
      simp [askAgain, ask, rejected, Turn.attempt, Turn.again, Attempt.settles, Attempt.isAnswered,
        Pending.turn, note, remember, Network.write, links, lastLink]

end Progress

/-! ## All turns -/

/-- The client takes the turns of a queue, and all those that join it, until
none is left. A turn that is taken may first cease to be set aside, so it does
not matter what is set aside before. -/
inductive TakesAll (plan : Plan) : List Turn → Progress → Progress → Prop where
  | done (progress : Progress) (none : progress.pending = []) : TakesAll plan [] progress progress
  | next {turn : Turn} {turns : List Turn} {progress next final : Progress} (rest : List Pending)
      (taken : Takes plan turn { progress with pending := rest } next)
      (later : TakesAll plan
        (turns ++ turn.again plan (progress.network.ask plan.client turn.expression).1) next
        final) :
      TakesAll plan (turn :: turns) progress final

namespace Progress

variable {plan : Plan}

/-- The loop over what has been set aside takes the turns of that. The induction
follows the recursion of the loop, whose termination is shown with its
definition. -/
theorem takesAll_askPending (progress : Progress) :
    TakesAll plan (progress.pending.map Pending.turn) progress (askPending plan progress) := by
  induction progress using askPending.induct plan with
  | case1 progress none =>
    rw [askPending, none]
    exact .done progress none
  | case2 progress item rest waiting ih =>
    have taken := takes_askAgain { progress with pending := rest } plan item
    rw [askPending, waiting]
    rw [taken.pending] at ih
    exact .next rest taken ih

/-- The loop over the file takes the turns of the expressions in it, before
those set aside. What it sets aside joins the queue at the end, behind the
expressions not asked for yet. -/
theorem takesAll_askAll {final : Progress} (progress : Progress) (position : Nat)
    (listed : List String)
    (later : TakesAll plan ((askAll plan progress position listed).pending.map Pending.turn)
      (askAll plan progress position listed) final) :
    TakesAll plan
      (unasked position listed ++ progress.pending.map Pending.turn) progress final := by
  induction listed generalizing progress position with
  | nil => exact later
  | cons expression rest ih =>
    have taken := progress.takes_askFirst plan position expression
    have follows := ih (askFirst plan progress position expression) (position + 1) later
    rw [taken.pending, ← List.append_assoc] at follows
    exact .next progress.pending taken follows

end Progress

/-- A client takes the turns of all expressions of its file. -/
theorem Plan.takesAll_settle (plan : Plan) (network : Network) (expressions : List String) :
    TakesAll plan (unasked 0 expressions) { network } (plan.settle network expressions) := by
  have loops := Progress.takesAll_askAll { network } 0 expressions
    (Progress.askAll plan { network } 0 expressions).takesAll_askPending
  rwa [List.map_nil, List.append_nil] at loops

/-! ## What turns preserve -/

/-- The number of turns that may still be taken: each of the turns to come, and
as many more at its expression as there are resends left. -/
def turnsLeft (plan : Plan) (turns : List Turn) : Nat :=
  (turns.map fun turn => plan.resends + 1 - turn.resend).sum

/-- The attempts made and the turns to come account for every expression. This
is the invariant of the client: it holds before the first attempt and is kept by
every turn, whatever the network makes of it. -/
structure Accounts (plan : Plan) (expressions : List String) (attempts : List Attempt)
    (turns : List Turn) : Prop where
  /-- Every position has been settled once, or is due once. -/
  once : (settled attempts ++ turns.map (·.position)).Perm (List.range expressions.length)
  /-- The first attempts follow the order of the file. -/
  firsts : (attempts.filter (·.resend = 0)).map (·.position) ++
    (turns.filter (·.resend = 0)).map (·.position) = List.range expressions.length
  /-- The attempts are at expressions of the file. -/
  asked : ∀ attempt ∈ attempts, expressions[attempt.position]? = some attempt.expression
  /-- So are the turns. -/
  due : ∀ turn ∈ turns, expressions[turn.position]? = some turn.expression
  /-- The attempts at one position are numbered. -/
  numbered : ∀ position, (trail attempts position).map (·.resend) =
    List.range (trail attempts position).length
  /-- The number goes on with the next turn. -/
  continued : ∀ turn ∈ turns, (trail attempts turn.position).length = turn.resend
  /-- No position that is due has been settled. -/
  unsettled : ∀ turn ∈ turns, ∀ attempt ∈ attempts, attempt.position = turn.position →
    attempt.settles = false
  /-- No position that has been settled is asked for again. -/
  unrepeated : attempts.Pairwise fun earlier later =>
    earlier.position = later.position → earlier.settles = false
  /-- No turn is beyond the limit. -/
  limited : ∀ turn ∈ turns, turn.resend ≤ plan.resends
  /-- The attempts made and those that may still follow are bounded from the
  start. -/
  spent : attempts.length + turnsLeft plan turns ≤ expressions.length * (plan.resends + 1)

namespace Accounts

variable {plan : Plan} {expressions : List String} {attempts : List Attempt} {turn : Turn}
  {turns : List Turn}

/-- A position is not due twice, for all positions settled or due are
different. -/
theorem later_positions_differ (accounts : Accounts plan expressions attempts (turn :: turns)) :
    ∀ later ∈ turns, later.position ≠ turn.position := by
  intro later member same
  have distinct := (List.nodup_append.mp (accounts.once.nodup_iff.mpr List.nodup_range)).2.1
  rw [List.map_cons, List.nodup_cons] at distinct
  exact distinct.1 (same ▸ List.mem_map_of_mem member)

theorem resend_lt (exchange : Exchange) (unsettled : (turn.attempt plan exchange).settles = false) :
    turn.resend < plan.resends := by
  simp only [Attempt.settles, Attempt.isAnswered, Turn.attempt, Bool.or_eq_false_iff,
    Bool.not_eq_eq_eq_not, Bool.not_false, Bool.and_eq_false_iff] at unsettled
  obtain ⟨rejected, accepted | unlimited⟩ := unsettled
  · cases rejected.symm.trans accepted
  · exact Nat.lt_of_not_le (of_decide_eq_false unlimited)

theorem trail_append_self (exchange : Exchange) :
    trail (attempts ++ [turn.attempt plan exchange]) turn.position =
      trail attempts turn.position ++ [turn.attempt plan exchange] := by
  simp [trail, Turn.attempt]

theorem trail_append_of_ne (exchange : Exchange) {position : Nat}
    (different : position ≠ turn.position) :
    trail (attempts ++ [turn.attempt plan exchange]) position = trail attempts position := by
  simp [trail, Turn.attempt, different.symm]

/-- After a turn, a property holds of all turns to come if it holds of those
that were waiting, and of the turn with one resend more in case that the attempt
did not settle the expression. -/
theorem forall_mem_after_turn {property : Turn → Prop} (exchange : Exchange)
    (waiting : ∀ later ∈ turns, property later)
    (again : (turn.attempt plan exchange).settles = false →
      property { turn with resend := turn.resend + 1 }) :
    ∀ next ∈ turns ++ turn.again plan exchange, property next := by
  refine List.forall_mem_append.mpr ⟨waiting, fun next member => ?_⟩
  unfold Turn.again at member
  split at member
  · cases member
  · rename_i unsettled
    rw [List.mem_singleton.mp member]
    exact again (Bool.eq_false_iff.mpr unsettled)

/-- A position that is settled is no longer due, and one that is left open is
due again. -/
theorem settled_after_turn (exchange : Exchange) :
    (settled (attempts ++ [turn.attempt plan exchange]) ++
      (turns ++ turn.again plan exchange).map (·.position)).Perm
      (settled attempts ++ (turn :: turns).map (·.position)) := by
  cases settles : (turn.attempt plan exchange).settles with
  | true =>
    simp only [settled, Turn.again, List.filter_append, List.filter_cons, settles, if_true,
      List.filter_nil, List.map_append, List.map_cons, List.map_nil, List.append_nil,
      List.append_assoc]
    exact List.Perm.refl _
  | false =>
    simp only [settled, Turn.again, List.filter_append, List.filter_cons, settles,
      Bool.false_eq_true, if_false, List.filter_nil, List.map_append, List.map_cons, List.map_nil,
      List.append_nil]
    exact (List.perm_append_singleton _ _).append_left _

/-- A turn that follows an attempt is never a first one, so the first attempts
and the first turns to come stay the same altogether. -/
theorem firsts_after_turn (exchange : Exchange) :
    ((attempts ++ [turn.attempt plan exchange]).filter (·.resend = 0)).map (·.position) ++
        ((turns ++ turn.again plan exchange).filter (·.resend = 0)).map (·.position) =
      (attempts.filter (·.resend = 0)).map (·.position) ++
        ((turn :: turns).filter (·.resend = 0)).map (·.position) := by
  have later : (turn.again plan exchange).filter (·.resend = 0) = [] := by
    unfold Turn.again
    split <;> simp
  rw [List.filter_append, List.filter_append, later, List.append_nil, List.map_append,
    List.append_assoc]
  by_cases initial : turn.resend = 0 <;> simp [initial, Turn.attempt]

/-- A turn that is taken uses up one of the turns left. -/
theorem turnsLeft_after_turn (limited : turn.resend ≤ plan.resends) (exchange : Exchange) :
    turnsLeft plan (turns ++ turn.again plan exchange) + 1 ≤ turnsLeft plan (turn :: turns) := by
  have later : turnsLeft plan (turn.again plan exchange) ≤ plan.resends - turn.resend := by
    unfold Turn.again turnsLeft
    split
    · exact Nat.zero_le _
    · simp only [List.map_cons, List.map_nil, List.sum_cons, List.sum_nil]
      omega
  simp only [turnsLeft, List.map_append, List.sum_append, List.map_cons, List.sum_cons] at *
  omega

/-- The attempts at every position are numbered still: the attempt made bears
the number of those before it. -/
theorem numbered_after_turn (accounts : Accounts plan expressions attempts (turn :: turns))
    (exchange : Exchange) (position : Nat) :
    (trail (attempts ++ [turn.attempt plan exchange]) position).map (·.resend) =
      List.range (trail (attempts ++ [turn.attempt plan exchange]) position).length := by
  by_cases here : position = turn.position
  · subst here
    rw [trail_append_self, List.map_append, accounts.numbered, List.length_append,
      List.length_singleton, List.range_succ, accounts.continued turn List.mem_cons_self]
    rfl
  · rw [trail_append_of_ne exchange here]
    exact accounts.numbered position

/-- A turn is taken, whatever comes of it. If the attempt settles the
expression, its position moves from those due to those settled; if it does not,
the turn joins the queue with one resend more, which is still within the limit.
Nothing changes for any other position. -/
theorem accounts_after_turn (accounts : Accounts plan expressions attempts (turn :: turns))
    (exchange : Exchange) :
    Accounts plan expressions (attempts ++ [turn.attempt plan exchange])
      (turns ++ turn.again plan exchange) := by
  have elsewhere := accounts.later_positions_differ
  have first : turn ∈ turn :: turns := List.mem_cons_self
  have fresh : ∀ attempt ∈ attempts, attempt.position = turn.position → attempt.settles = false :=
    accounts.unsettled turn first
  constructor
  case once => exact (settled_after_turn exchange).trans accounts.once
  case firsts => exact (firsts_after_turn exchange).trans accounts.firsts
  case asked =>
    exact List.forall_mem_append.mpr
      ⟨accounts.asked, List.forall_mem_singleton.mpr (accounts.due turn first)⟩
  case due =>
    exact forall_mem_after_turn exchange
      (fun later waiting => accounts.due later (List.mem_cons_of_mem _ waiting))
      fun _ => accounts.due turn first
  case numbered => exact accounts.numbered_after_turn exchange
  case continued =>
    refine forall_mem_after_turn exchange (fun later waiting => ?_) fun _ => ?_
    · rw [trail_append_of_ne exchange (elsewhere later waiting)]
      exact accounts.continued later (List.mem_cons_of_mem _ waiting)
    · rw [trail_append_self, List.length_append, List.length_singleton,
        accounts.continued turn first]
  case unsettled =>
    refine forall_mem_after_turn exchange (fun later waiting => ?_) fun unsettled => ?_
    · refine List.forall_mem_append.mpr
        ⟨accounts.unsettled later (List.mem_cons_of_mem _ waiting), ?_⟩
      exact List.forall_mem_singleton.mpr fun same => absurd same.symm (elsewhere later waiting)
    · exact List.forall_mem_append.mpr ⟨fresh, List.forall_mem_singleton.mpr fun _ => unsettled⟩
  case unrepeated =>
    refine List.pairwise_append.mpr ⟨accounts.unrepeated, List.pairwise_singleton _ _, ?_⟩
    intro earlier member latest last same
    rw [List.mem_singleton.mp last] at same
    exact fresh earlier member same
  case limited =>
    exact forall_mem_after_turn exchange
      (fun later waiting => accounts.limited later (List.mem_cons_of_mem _ waiting))
      (resend_lt exchange)
  case spent =>
    have left : turnsLeft plan (turns ++ turn.again plan exchange) + 1 ≤
        turnsLeft plan (turn :: turns) :=
      turnsLeft_after_turn (accounts.limited turn first) exchange
    rw [List.length_append, List.length_singleton]
    exact Nat.le_trans (by omega) accounts.spent

end Accounts

end Reckon.Batch
