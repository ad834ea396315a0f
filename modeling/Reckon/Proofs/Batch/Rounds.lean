import Reckon.Proofs.Batch.Settlement

/-!
# Resends go in rounds

A client keeps a single queue: what is rejected joins at the end. Whatever the
replies are, this comes to rounds. The first round asks for every expression in
the order of the file, and each round after it asks once more, in that order,
for the expressions that the round before has left unsettled. So no expression
is resent once more before all that are still unsettled have been resent as
often.

What a queue of turns may lead to, with replies chosen by anyone, is a
`History`. A history of the turns of one round starts with an attempt for each
of them, and goes on as a history of the turns that these attempts leave behind
(`History.exists_first_round`).
-/

namespace Reckon.Batch

/-! ## Histories -/

/-- The attempts that a queue of turns leads to, whatever comes of each of them.
The network is left out: any exchange may be made at any attempt, so that what
is shown of histories holds for every network. -/
inductive History (plan : Plan) : List Turn → List Attempt → Prop where
  /-- Without turns there are no attempts. -/
  | done : History plan [] []
  /-- The turn in front is taken, and another turn joins at the end if its
  expression is not settled. -/
  | taken (turn : Turn) (turns : List Turn) (exchange : Exchange) (later : List Attempt)
      (rest : History plan (turns ++ turn.again plan exchange) later) :
      History plan (turn :: turns) (turn.attempt plan exchange :: later)

def Attempt.next (attempt : Attempt) : Turn :=
  { position := attempt.position, expression := attempt.expression, resend := attempt.resend + 1 }

/-- The attempt was rejected, and the client did not give its expression up. -/
def Attempt.isOpen (attempt : Attempt) : Bool :=
  attempt.exchange.isRejected && !attempt.gaveUp

/-- The turns that some attempts leave behind: one for every attempt that left
its expression open, in the order of the attempts. -/
def leftBehind (attempts : List Attempt) : List Turn :=
  (attempts.filter Attempt.isOpen).map Attempt.next

theorem Attempt.isOpen_eq_not_settles (attempt : Attempt) : attempt.isOpen = !attempt.settles := by
  simp [isOpen, settles, isAnswered]

/-- The turn that follows an attempt is what the attempt leaves behind. This is
what lets single turns be gathered into rounds. -/
theorem Turn.again_eq_leftBehind (plan : Plan) (turn : Turn) (exchange : Exchange) :
    turn.again plan exchange = leftBehind [turn.attempt plan exchange] := by
  simp only [Turn.again, leftBehind, List.filter_cons, List.filter_nil,
    Attempt.isOpen_eq_not_settles]
  cases (turn.attempt plan exchange).settles with
  | true => rfl
  | false => rfl

theorem leftBehind_append (first second : List Attempt) :
    leftBehind (first ++ second) = leftBehind first ++ leftBehind second := by
  simp [leftBehind]

section Client

variable {plan : Plan}

/-- What is done by taking all turns of a queue is a history of them, with the
exchanges that the network made. -/
theorem TakesAll.exists_history {turns : List Turn} {progress final : Progress}
    (taken : TakesAll plan turns progress final) :
    ∃ later, final.attempts = progress.attempts ++ later ∧ History plan turns later := by
  induction taken with
  | done progress none => exact ⟨[], (List.append_nil _).symm, .done⟩
  | next rest taken later ih =>
    obtain ⟨made, attempts, history⟩ := ih
    rw [taken.attempts, List.append_assoc] at attempts
    exact ⟨_ :: made, attempts, .taken _ _ _ made history⟩

/-- All that a client does is a history of its expressions. -/
theorem Plan.history_settle (plan : Plan) (network : Network) (expressions : List String) :
    History plan (unasked 0 expressions) (plan.settle network expressions).attempts := by
  obtain ⟨later, attempts, history⟩ := (plan.takesAll_settle network expressions).exists_history
  rw [attempts]
  exact history

/-! ## Rounds -/

/-- The turns in front of a queue are taken first, one attempt each. What they
leave behind is due after the turns that were queued already. By induction on
the turns in front: each of them adds at most one turn at the very end. -/
theorem History.exists_first_round {ahead queued : List Turn} {attempts : List Attempt}
    (history : History plan (ahead ++ queued) attempts) :
    ∃ made later, attempts = made ++ later ∧
      made.map (·.position) = ahead.map (·.position) ∧
      made.map (·.resend) = ahead.map (·.resend) ∧
      History plan (queued ++ leftBehind made) later := by
  induction ahead generalizing queued attempts with
  | nil => exact ⟨[], attempts, rfl, rfl, rfl, by simpa [leftBehind] using history⟩
  | cons turn ahead ih =>
    cases history with
    | taken _ _ exchange others rest =>
      have rest : History plan (ahead ++ (queued ++ turn.again plan exchange)) others :=
        List.append_assoc .. ▸ rest
      obtain ⟨made, later, rfl, positions, resends, follows⟩ := ih rest
      refine ⟨turn.attempt plan exchange :: made, later, rfl, ?_, ?_, ?_⟩
      · rw [List.map_cons, positions, List.map_cons]
        rfl
      · rw [List.map_cons, resends, List.map_cons]
        rfl
      · rwa [List.append_assoc, Turn.again_eq_leftBehind, ← leftBehind_append] at follows

/-- The rounds that follow, if these positions are due for the given resend: one
attempt for each of them in their order, and then the rounds of those that are
left open. There are no rounds if nothing is due. -/
def InRounds (resend : Nat) (positions : List Nat) : List (List Attempt) → Prop
  | [] => positions = []
  | made :: later =>
      made.map (·.position) = positions ∧ (∀ attempt ∈ made, attempt.resend = resend) ∧
        InRounds (resend + 1) ((made.filter Attempt.isOpen).map (·.position)) later

theorem of_mem_leftBehind {made : List Attempt} {resend : Nat}
    (same : ∀ attempt ∈ made, attempt.resend = resend) :
    ∀ turn ∈ leftBehind made, turn.resend = resend + 1 := by
  intro turn member
  obtain ⟨attempt, kept, rfl⟩ := List.mem_map.mp member
  exact congrArg (· + 1) (same attempt (List.mem_filter.mp kept).1)

/-- A history of turns that are due for the same resend goes in rounds. The
first round takes them all, and what it leaves behind is due for one resend
more. -/
theorem History.history_goes_in_rounds {turns : List Turn} {attempts : List Attempt} {resend : Nat}
    (history : History plan turns attempts) (due : ∀ turn ∈ turns, turn.resend = resend) :
    ∃ rounds, attempts = rounds.flatten ∧ InRounds resend (turns.map (·.position)) rounds := by
  -- Every round has an attempt, so there are fewer attempts in the rounds that follow.
  induction size : attempts.length using Nat.strong_induction_on
    generalizing turns attempts resend with
  | _ bound ih =>
    cases turns with
    | nil =>
      cases history
      exact ⟨[], rfl, rfl⟩
    | cons turn rest =>
      rw [← List.append_nil (turn :: rest)] at history
      obtain ⟨made, later, rfl, positions, resends, follows⟩ := history.exists_first_round
      rw [List.nil_append] at follows
      have same : ∀ attempt ∈ made, attempt.resend = resend := by
        intro attempt member
        have listed : attempt.resend ∈ made.map (·.resend) := List.mem_map_of_mem member
        rw [resends] at listed
        obtain ⟨other, among, equal⟩ := List.mem_map.mp listed
        exact equal.symm.trans (due other among)
      have fewer : later.length < bound := by
        have count := congrArg List.length positions
        rw [List.length_map, List.length_map, List.length_cons] at count
        rw [← size, List.length_append]
        omega
      obtain ⟨rounds, parts, inRounds⟩ := ih later.length fewer follows (of_mem_leftBehind same) rfl
      refine ⟨made :: rounds, by rw [parts, List.flatten_cons], positions, same, ?_⟩
      rwa [leftBehind, List.map_map] at inRounds

end Client

/-- What comes before an attempt that is not among the first ones begins with
all of these. -/
theorem exists_append_of_notMem {first rest before after : List Attempt} {attempt : Attempt}
    (elsewhere : attempt ∉ first) (parts : first ++ rest = before ++ attempt :: after) :
    ∃ others, before = first ++ others ∧ rest = others ++ attempt :: after := by
  rcases List.append_eq_append_iff.mp parts with ⟨others, whole, left⟩ | ⟨others, whole, left⟩
  · exact ⟨others, whole, left⟩
  · cases others with
    | nil => exact ⟨[], by simpa using whole.symm, left.symm⟩
    | cons next later =>
      obtain ⟨rfl, _⟩ := List.cons.inj left
      exact absurd (whole ▸ List.mem_append_right before List.mem_cons_self) elsewhere

namespace InRounds

variable {resend : Nat} {positions : List Nat} {rounds : List (List Attempt)}

/-- If the first round keeps the order of the file, so do all, since each asks
for a part of what the one before has asked for. -/
theorem every_round_increasing (inRounds : InRounds resend positions rounds)
    (increasing : positions.Pairwise (· < ·)) :
    ∀ round ∈ rounds, (round.map (·.position)).Pairwise (· < ·) := by
  induction rounds generalizing resend positions with
  | nil => exact nofun
  | cons made later ih =>
    obtain ⟨rfl, _, rest⟩ := inRounds
    intro round member
    rcases List.mem_cons.mp member with rfl | follows
    · exact increasing
    · exact ih rest (increasing.sublist (List.filter_sublist.map _)) round follows

/-- Before an expression is resent once more, every expression has been resent
as often or settled. The attempt belongs to a later round than the one for the
resend before, and that round has an attempt at every position still open. -/
theorem resent_or_settled_before (inRounds : InRounds resend positions rounds)
    {before after : List Attempt} {attempt : Attempt}
    (parts : rounds.flatten = before ++ attempt :: after) {count : Nat}
    (more : attempt.resend = count + 1) (started : resend ≤ count) :
    ∀ position ∈ positions,
      (∃ earlier ∈ before, earlier.position = position ∧ earlier.settles = true) ∨
        ∃ earlier ∈ before, earlier.position = position ∧ earlier.resend = count := by
  induction rounds generalizing resend positions before with
  | nil =>
    cases before with
    | nil => cases parts
    | cons first rest => cases parts
  | cons made later ih =>
    obtain ⟨rfl, same, rest⟩ := inRounds
    have elsewhere : attempt ∉ made := by
      intro member
      have here := same attempt member
      omega
    obtain ⟨others, rfl, left⟩ := exists_append_of_notMem elsewhere parts
    intro position member
    obtain ⟨tried, asked, rfl⟩ := List.mem_map.mp member
    have earlier : tried ∈ made ++ others := List.mem_append_left others asked
    cases settles : tried.settles with
    | true => exact .inl ⟨tried, earlier, rfl, settles⟩
    | false =>
      rcases Nat.eq_or_lt_of_le started with last | further
      · exact .inr ⟨tried, earlier, rfl, (same tried asked).trans last⟩
      · have due : tried.position ∈ (made.filter Attempt.isOpen).map (·.position) := by
          refine List.mem_map_of_mem (List.mem_filter.mpr ⟨asked, ?_⟩)
          rw [Attempt.isOpen_eq_not_settles, settles]
          rfl
        have inside {found : Attempt} (among : found ∈ others) : found ∈ made ++ others :=
          List.mem_append_right made among
        rcases ih rest left further tried.position due with
          ⟨found, among, place, settled⟩ | ⟨found, among, place, level⟩
        · exact .inl ⟨found, inside among, place, settled⟩
        · exact .inr ⟨found, inside among, place, level⟩

end InRounds

/-- Whatever the network does, a client goes in rounds. The first one asks for
all expressions in the order of the file, and every other one for those that
were rejected in the round before and not given up, in the same order; it ends
when there are none. Each attempt comes to what the network made of it, over the
next link. Before the next resend at a position, every position has been settled
or has had the resend before it. The results are those of the attempts that
settled a position, round by round.

Proof: both loops of the client take turns of one queue (`TakesAll`). The turns
in front of the queue are all taken before those that they cause
(`History.exists_first_round`), so a queue that is due for one resend makes a
round, and leaves a queue that is due for the next. There are fewer attempts
after every round, which carries the induction. -/
theorem Plan.attempts_go_in_rounds (plan : Plan) (network : Network) (expressions : List String) :
    ∃ rounds : List (List Attempt),
      (plan.settle network expressions).attempts = rounds.flatten ∧
      InRounds 0 (List.range expressions.length) rounds ∧
      (∀ round ∈ rounds, (round.map (·.position)).Pairwise (· < ·)) ∧
      (∀ index attempt, (plan.settle network expressions).attempts[index]? = some attempt →
        expressions[attempt.position]? = some attempt.expression ∧
        ∃ before : Network, before.links = network.links.drop index ∧
          before.lastLink = network.lastLink ∧
          attempt.exchange = (before.ask plan.client attempt.expression).1) ∧
      (∀ before attempt after count,
        (plan.settle network expressions).attempts = before ++ attempt :: after →
        attempt.resend = count + 1 → ∀ position < expressions.length,
          (∃ earlier ∈ before, earlier.position = position ∧ earlier.settles = true) ∨
            ∃ earlier ∈ before, earlier.position = position ∧ earlier.resend = count) ∧
      (plan.run network expressions).1.results = rounds.flatMap fun round =>
        (round.filter Attempt.settles).map fun attempt =>
          (attempt.expression, replyValue? attempt.exchange.reply) := by
  have first : (unasked 0 expressions).map (·.position) = List.range expressions.length := by
    rw [position_unasked, List.range_eq_range']
  obtain ⟨rounds, parts, inRounds⟩ :=
    (plan.history_settle network expressions).history_goes_in_rounds
      fun turn member => (of_mem_unasked 0 expressions turn member).1
  rw [first] at inRounds
  obtain ⟨_, course⟩ := plan.course_settle network expressions
  refine ⟨rounds, parts, inRounds, inRounds.every_round_increasing List.pairwise_lt_range, ?_, ?_,
    ?_⟩
  · intro index attempt found
    exact ⟨course.accounts.asked attempt (List.mem_of_getElem? found),
      course.heard index attempt found⟩
  · intro before attempt after count split more position bound
    exact inRounds.resent_or_settled_before (parts ▸ split) more (Nat.zero_le count) position
      (List.mem_range.mpr bound)
  · have results : (plan.run network expressions).1.results =
        (plan.settle network expressions).attempts.filterMap Attempt.result? := rfl
    rw [results, filterMap_result?, parts, List.filter_flatten, List.map_flatten, List.map_map]
    rfl

end Reckon.Batch
