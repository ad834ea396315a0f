import Reckon.Proofs.Batch.Turn

/-!
# Every expression is settled once

Whatever the network does, a client comes to an end, and what it reports
accounts for every expression of the file by its position, so that an expression
that occurs twice has two results. Nothing is lost and nothing is doubled: the
positions in the report are those of the file in some order, and in that of the
file if nothing was rejected.

The client takes one turn after another until none is left, and `Course` is what
each turn keeps: the accounts, and that every attempt was heard over a link of
its own.
-/

namespace Reckon.Batch

def firstReply (attempts : List Attempt) (position : Nat) : Option String :=
  (trail attempts position).head?.map (·.exchange.reply)

def lastReply (attempts : List Attempt) (position : Nat) : Option String :=
  (trail attempts position).getLast?.map (·.exchange.reply)

/-! ## The turns before the first attempt -/

theorem position_unasked (position : Nat) (listed : List String) :
    (unasked position listed).map (·.position) = List.range' position listed.length := by
  induction listed generalizing position with
  | nil => rfl
  | cons expression rest ih => simp [unasked, ih, List.range'_succ]

/-- A first turn is that of the expression at its position, and no resend. -/
theorem of_mem_unasked (position : Nat) (listed : List String) :
    ∀ turn ∈ unasked position listed, turn.resend = 0 ∧ position ≤ turn.position ∧
      listed[turn.position - position]? = some turn.expression := by
  induction listed generalizing position with
  | nil => exact fun _ member => nomatch member
  | cons expression rest ih =>
    intro turn member
    rcases List.mem_cons.mp member with rfl | later
    · simp
    · obtain ⟨initial, bound, found⟩ := ih (position + 1) turn later
      have behind : turn.position - position = turn.position - (position + 1) + 1 := by omega
      exact ⟨initial, by omega, by rw [behind, List.getElem?_cons_succ, found]⟩

/-- Every expression may take its first turn and as many more as there are
resends. -/
theorem turnsLeft_unasked (plan : Plan) (position : Nat) (listed : List String) :
    turnsLeft plan (unasked position listed) = listed.length * (plan.resends + 1) := by
  induction listed generalizing position with
  | nil => simp [unasked, turnsLeft]
  | cons expression rest ih =>
    simp only [turnsLeft] at ih ⊢
    rw [unasked, List.map_cons, List.sum_cons, ih, List.length_cons, Nat.succ_mul, Nat.sub_zero,
      Nat.add_comm]

/-! ## The course of a client -/

/-- The client is on its way through the expressions, with these turns to come.
This ties the accounts, which know nothing of the network, to what the network
made of every attempt. -/
structure Course (plan : Plan) (network : Network) (expressions : List String) (turns : List Turn)
    (progress : Progress) : Prop where
  /-- The attempts and the turns account for every expression. -/
  accounts : Accounts plan expressions progress.attempts turns
  /-- As many links have been used as there were attempts. -/
  links : progress.network.links = network.links.drop progress.attempts.length
  lastLink : progress.network.lastLink = network.lastLink
  /-- Every attempt came to what the network made of it, over the next link. -/
  heard : ∀ (index : Nat) (attempt : Attempt), progress.attempts[index]? = some attempt →
    ∃ before : Network, before.links = network.links.drop index ∧
      before.lastLink = network.lastLink ∧
      attempt.exchange = (before.ask plan.client attempt.expression).1

namespace Course

variable {plan : Plan} {network : Network} {expressions : List String} {turn : Turn}
  {turns : List Turn} {progress next : Progress}

/-- The client goes on by taking a turn. The accounts are kept whatever comes of
it (`Accounts.accounts_after_turn`), and the turn uses the next link. -/
theorem course_after_turn (course : Course plan network expressions (turn :: turns) progress)
    (taken : Takes plan turn progress next) :
    Course plan network expressions
      (turns ++ turn.again plan (progress.network.ask plan.client turn.expression).1) next where
  accounts := taken.attempts ▸ course.accounts.accounts_after_turn _
  links := by
    rw [taken.links, course.links, taken.attempts, List.length_append, List.length_singleton,
      List.tail_drop]
  lastLink := taken.lastLink.trans course.lastLink
  heard index attempt found := by
    rw [taken.attempts] at found
    rcases Nat.lt_or_ge index progress.attempts.length with earlier | latest
    · rw [List.getElem?_append_left earlier] at found
      exact course.heard index attempt found
    · rw [List.getElem?_append_right latest, List.getElem?_singleton] at found
      obtain ⟨same, made⟩ := Option.ite_none_right_eq_some.mp found
      have here : index = progress.attempts.length := by omega
      cases made
      exact ⟨progress.network, here ▸ course.links, course.lastLink, rfl⟩

/-- Before the first attempt, all expressions are due in the order of the
file. -/
theorem course_before_first_turn (plan : Plan) (network : Network) (expressions : List String) :
    Course plan network expressions (unasked 0 expressions) { network } where
  accounts :=
    { once := by
        rw [position_unasked, ← List.range_eq_range']
        exact List.Perm.refl _
      firsts := by
        have initial : (unasked 0 expressions).filter (·.resend = 0) = unasked 0 expressions :=
          List.filter_eq_self.mpr fun turn member =>
            decide_eq_true (of_mem_unasked 0 expressions turn member).1
        rw [initial, position_unasked, ← List.range_eq_range']
        rfl
      asked := nofun
      due := fun turn member => (of_mem_unasked 0 expressions turn member).2.2
      numbered := fun _ => rfl
      continued := fun turn member => (of_mem_unasked 0 expressions turn member).1.symm
      unsettled := nofun
      unrepeated := List.Pairwise.nil
      limited := fun turn member =>
        (of_mem_unasked 0 expressions turn member).1 ▸ Nat.zero_le plan.resends
      spent := by simp [turnsLeft_unasked] }
  links := rfl
  lastLink := rfl
  heard := nofun

/-- A client that takes all its turns comes to the end of its course, with
nothing set aside. This is the induction over the whole run. -/
theorem course_after_last_turn {final : Progress}
    (course : Course plan network expressions turns progress)
    (taken : TakesAll plan turns progress final) :
    final.pending = [] ∧ Course plan network expressions [] final := by
  induction taken with
  | done progress none => exact ⟨none, course⟩
  | @next turn turns progress _ _ rest taken later ih =>
    have shorter :
        Course plan network expressions (turn :: turns) { progress with pending := rest } :=
      { course with }
    exact ih (shorter.course_after_turn taken)

end Course

/-- A client that has gone through its course has no turns left. Both of its
loops end, because together they take all turns (`Plan.takesAll_settle`). -/
theorem Plan.course_settle (plan : Plan) (network : Network) (expressions : List String) :
    (plan.settle network expressions).pending = [] ∧
      Course plan network expressions [] (plan.settle network expressions) :=
  (Course.course_before_first_turn plan network expressions).course_after_last_turn
    (plan.takesAll_settle network expressions)

/-! ## What is read off the history -/

theorem replyValue_rejection : replyValue? Settings.rejection = none := by
  decide +kernel

theorem replyValue_empty : replyValue? "" = none := by
  decide +kernel

/-- An attempt that settles its expression gives it the value of the reply. If
the client gave the expression up, the reply is a rejection and has no value. -/
theorem Attempt.result?_eq (attempt : Attempt) :
    attempt.result? =
      if attempt.settles then some (attempt.expression, replyValue? attempt.exchange.reply)
      else none := by
  unfold result? settles
  cases answered : attempt.isAnswered with
  | true => simp
  | false =>
    cases gaveUp : attempt.gaveUp with
    | false => simp
    | true =>
      have rejected : attempt.exchange.reply = Settings.rejection := by
        simpa [Attempt.isAnswered, Exchange.isRejected] using answered
      simp [rejected, replyValue_rejection]

theorem filterMap_result? (attempts : List Attempt) :
    attempts.filterMap Attempt.result? = (attempts.filter Attempt.settles).map
      fun attempt => (attempt.expression, replyValue? attempt.exchange.reply) := by
  rw [← List.filterMap_eq_map, List.filterMap_filter]
  exact List.filterMap_congr fun attempt _ => attempt.result?_eq

namespace Accounts

variable {plan : Plan} {expressions : List String} {attempts : List Attempt} {turns : List Turn}

/-- Every attempt at a position but the last one left it unsettled, for nothing
that is settled is asked for again. -/
theorem pairwise_trail (accounts : Accounts plan expressions attempts turns) (position : Nat) :
    (trail attempts position).Pairwise fun earlier _ => earlier.settles = false := by
  have ordered := accounts.unrepeated.sublist (List.filter_sublist (l := attempts)
    (p := fun attempt => attempt.position = position))
  refine ordered.imp_of_mem fun first second unsettled => unsettled ?_
  have place {attempt : Attempt} (member : attempt ∈ trail attempts position) :
      attempt.position = position :=
    of_decide_eq_true (List.mem_filter.mp member).2
  rw [place first, place second]

/-- The attempt that settles a position is the last one there, since it would
leave the position unsettled if another one followed. -/
theorem getLast?_trail (accounts : Accounts plan expressions attempts turns) {attempt : Attempt}
    (member : attempt ∈ attempts) (settles : attempt.settles = true) :
    (trail attempts attempt.position).getLast? = some attempt := by
  have listed : attempt ∈ trail attempts attempt.position :=
    List.mem_filter.mpr ⟨member, decide_eq_true rfl⟩
  have ordered := accounts.pairwise_trail attempt.position
  obtain ⟨before, after, parts⟩ := List.append_of_mem listed
  rw [parts] at ordered ⊢
  cases after with
  | nil => exact List.getLast?_concat
  | cons next later =>
    have behind := (List.pairwise_append.mp ordered).2.1
    cases settles.symm.trans ((List.pairwise_cons.mp behind).1 next List.mem_cons_self)

/-- The attempt without a resend is the first one at its position, because the
attempts there are numbered. -/
theorem head?_trail (accounts : Accounts plan expressions attempts turns) {attempt : Attempt}
    (member : attempt ∈ attempts) (initial : attempt.resend = 0) :
    (trail attempts attempt.position).head? = some attempt := by
  have listed : attempt ∈ trail attempts attempt.position :=
    List.mem_filter.mpr ⟨member, decide_eq_true rfl⟩
  obtain ⟨index, found⟩ := List.getElem?_of_mem listed
  have bound := (List.getElem?_eq_some_iff.mp found).1
  have number : attempt.resend = index := by
    have numbered := congrArg (·[index]?) (accounts.numbered attempt.position)
    simpa [found, List.getElem?_range bound] using numbered
  rw [List.head?_eq_getElem?, ← found, ← number, initial]

/-- An attempt that is not the first at its position follows one that was
rejected. -/
theorem exists_rejected (accounts : Accounts plan expressions attempts turns) {attempt : Attempt}
    (member : attempt ∈ attempts) (repeated : attempt.resend ≠ 0) :
    ∃ earlier ∈ attempts, earlier.exchange.isRejected = true := by
  have listed : attempt ∈ trail attempts attempt.position :=
    List.mem_filter.mpr ⟨member, decide_eq_true rfl⟩
  have numbered := accounts.numbered attempt.position
  have ordered := accounts.pairwise_trail attempt.position
  cases order : trail attempts attempt.position with
  | nil =>
    rw [order] at listed
    cases listed
  | cons first later =>
    have here : first ∈ trail attempts attempt.position := order ▸ List.mem_cons_self
    have among := (List.mem_filter.mp here).1
    rw [order] at listed numbered ordered
    have initial : first.resend = 0 := by
      simpa [List.range_succ_eq_map] using (congrArg List.head? numbered)
    rcases List.mem_cons.mp listed with rfl | follows
    · exact absurd initial repeated
    · have unsettled := (List.pairwise_cons.mp ordered).1 attempt follows
      simp only [Attempt.settles, Attempt.isAnswered, Bool.or_eq_false_iff,
        Bool.not_eq_eq_eq_not, Bool.not_false] at unsettled
      exact ⟨first, among, unsettled.1⟩

/-- Every position that has been settled has one result, which is the value of
the last reply. Results and settled positions are read off the same attempts. -/
theorem results_are_last_replies (accounts : Accounts plan expressions attempts turns) :
    List.Forall₂
      (fun position result => expressions[position]? = some result.1 ∧
        ∃ reply, lastReply attempts position = some reply ∧ result.2 = replyValue? reply)
      (settled attempts) (attempts.filterMap Attempt.result?) := by
  rw [filterMap_result?, settled, List.forall₂_map_left_iff, List.forall₂_map_right_iff,
    List.forall₂_same]
  intro attempt member
  obtain ⟨made, settles⟩ := List.mem_filter.mp member
  refine ⟨accounts.asked attempt made, _, ?_, rfl⟩
  rw [lastReply, accounts.getLast?_trail made settles]
  rfl

/-- If nothing was rejected, the expressions are settled in the order of the
file: all attempts are first attempts, and each settles its position. -/
theorem settled_of_unrejected (accounts : Accounts plan expressions attempts [])
    (unrejected : ∀ attempt ∈ attempts, attempt.exchange.isRejected = false) :
    settled attempts = List.range expressions.length := by
  have initial : ∀ attempt ∈ attempts, attempt.resend = 0 := by
    intro attempt member
    refine Classical.byContradiction fun repeated => ?_
    obtain ⟨earlier, among, rejected⟩ := accounts.exists_rejected member repeated
    cases rejected.symm.trans (unrejected earlier among)
  have firsts := accounts.firsts
  rw [List.filter_nil, List.map_nil, List.append_nil,
    List.filter_eq_self.mpr fun attempt member => decide_eq_true (initial attempt member)] at firsts
  rw [settled, List.filter_eq_self.mpr, firsts]
  intro attempt member
  simp [Attempt.settles, Attempt.isAnswered, unrejected attempt member]

/-- The rejections of first attempts are counted by position. Every position has
exactly one first attempt. -/
theorem countP_rejected (accounts : Accounts plan expressions attempts []) :
    (attempts.countP fun attempt => attempt.resend == 0 && attempt.exchange.isRejected) =
      (List.range expressions.length).countP fun position =>
        firstReply attempts position = some Settings.rejection := by
  have firsts := accounts.firsts
  rw [List.filter_nil, List.map_nil, List.append_nil] at firsts
  rw [← firsts, List.countP_map, List.countP_filter]
  refine List.countP_congr fun attempt member => ?_
  by_cases initial : attempt.resend = 0
  · simp [initial, firstReply, accounts.head?_trail member initial, Exchange.isRejected]
  · simp [initial]

end Accounts

/-- Whatever the network does, a client settles every expression. In the end
nothing is set aside, and the number of attempts is within the limit of the
plan.

The results are those of all positions, each once, in the order in which they
were settled, which is that of the file if nothing was rejected. A result names
the expression at its position and has the value of the last reply there. The
client reports how many expressions there were, and at how many positions the
first reply was a rejection. Only a rejected attempt is followed by another one
at the same position.

The reply of an attempt is what the network made of it over the next link. If
that was nothing, the reply is empty; neither an empty reply nor a rejection has
a value.

Proof: `Accounts` is an invariant of taking turns. The positions settled and the
positions due are together those of the file, each once, and the attempts made
and those still possible never exceed the bound (`accounts_after_turn`). Both
loops of the client end with no turn left (`Plan.course_settle`), so then every
position is settled, by one attempt. That attempt is the last one at its
position (`getLast?_trail`), which ties the results to the last replies, and the
rejections counted by the client are those of the first attempts
(`countP_rejected`). -/
theorem Plan.settles_every_expression (plan : Plan) (network : Network)
    (expressions : List String) :
    (plan.settle network expressions).pending = [] ∧
    (plan.settle network expressions).attempts.length ≤ expressions.length * (plan.resends + 1) ∧
    (∃ order : List Nat, order.Perm (List.range expressions.length) ∧
      List.Forall₂
        (fun position result => expressions[position]? = some result.1 ∧
          ∃ reply, lastReply (plan.settle network expressions).attempts position = some reply ∧
            result.2 = replyValue? reply)
        order (plan.run network expressions).1.results ∧
      ((∀ attempt ∈ (plan.settle network expressions).attempts,
        attempt.exchange.isRejected = false) → order = List.range expressions.length)) ∧
    (plan.run network expressions).1.tasks = expressions.length ∧
    (plan.run network expressions).1.rejected =
      ((List.range expressions.length).countP fun position =>
        firstReply (plan.settle network expressions).attempts position = some Settings.rejection) ∧
    ((plan.settle network expressions).attempts.Pairwise fun earlier later =>
      earlier.position = later.position → earlier.exchange.isRejected = true) ∧
    (∀ index attempt, (plan.settle network expressions).attempts[index]? = some attempt →
      expressions[attempt.position]? = some attempt.expression ∧
      ∃ before : Network, before.links = network.links.drop index ∧
        before.lastLink = network.lastLink ∧
        attempt.exchange.reply =
          ((before.exchange (requestMessage plan.client attempt.expression)).1.toOption).getD "") ∧
    replyValue? "" = none ∧ replyValue? Settings.rejection = none := by
  obtain ⟨done, course⟩ := plan.course_settle network expressions
  have accounts := course.accounts
  refine ⟨done, by simpa [turnsLeft] using accounts.spent, ⟨_, by simpa using accounts.once,
    accounts.results_are_last_replies, accounts.settled_of_unrejected⟩, rfl,
    accounts.countP_rejected, ?_, ?_,
    replyValue_empty, replyValue_rejection⟩
  · refine accounts.unrepeated.imp fun unsettled same => ?_
    simpa [Attempt.settles, Attempt.isAnswered] using (Bool.or_eq_false_iff.mp (unsettled same)).1
  · intro index attempt found
    obtain ⟨before, links, lastLink, heard⟩ := course.heard index attempt found
    exact ⟨accounts.asked attempt (List.mem_of_getElem? found), before, links, lastLink,
      heard ▸ before.reply_ask _ _⟩

end Reckon.Batch
