import Mathlib.Data.List.Chain
import Mathlib.Data.List.TakeWhile
import Reckon.Proofs.Parentheses

/-!
# Layers of what is held

What the converter holds back grows and shrinks at its top only. An operator
removes the operators on top that bind at least as tightly before it is laid
there, so that it comes to lie on one that binds less tightly, on an opening
parenthesis, or on nothing. A closing parenthesis removes the operators down to
an opening one and with it what separated them from the operators below. These
are as they were when they were covered.

So what is held is `Layered` after any tokens (`layered_heldAfter`), for it is
so at first and every token keeps it so (`Layered.layered_hold`). Said for runs
of operators without a parenthesis between them, precedences decrease from the
top to the bottom (`layered_iff`); there are two precedences, so a run has two
operators at most. Nothing more can be said: what is layered is held after its
own tokens, the bottom first (`Layered.heldAfter_eq`).

The parentheses held are as many as the tokens have opening ones without a
partner. The converter knows no partners. It forgets an opening parenthesis for
each closing one as long as it has any, which is how `Token.unclosed` counts
them (`count_opening_heldAfter`).
-/

namespace Reckon

theorem Operator.precedence_pos (op : Operator) : 0 < op.precedence := by
  cases op <;> decide

/-- There are two levels of operators. Only this bound, and that every level is
positive, limits how many operators can be held one above the other. -/
theorem Operator.precedence_le (op : Operator) : op.precedence ≤ 2 := by
  cases op <;> decide

namespace Postfix

/-- The tokens that are ever held: operators and opening parentheses. -/
def isHeld : Token → Bool
  | .number _ => false
  | .operator _ => true
  | .opening => true
  | .closing => false

/-- The token that is held. -/
def Held.token : Held → Token
  | .operator op => .operator op
  | .opening => .opening

/-- What is held after some tokens: the part of a conversion that does not
depend on what has come out. -/
def heldAfter (tokens : List Token) : List Held :=
  tokens.foldl hold []

/-- An operator may lie on another one only if it binds more tightly.
Parentheses separate, and may lie anywhere and bear anything. -/
def Held.MayLieOn : Held → Held → Prop
  | .operator upper, .operator lower => lower.precedence < upper.precedence
  | _, _ => True

instance : DecidableRel Held.MayLieOn
  | .operator upper, .operator lower =>
      inferInstanceAs (Decidable (lower.precedence < upper.precedence))
  | .operator _, .opening => .isTrue trivial
  | .opening, _ => .isTrue trivial

/-- All that is held may lie on what was held just before it. As a chain, this
is inherited by whatever is left when the top is removed. -/
def Layered (held : List Held) : Prop :=
  held.IsChain Held.MayLieOn

instance (held : List Held) : Decidable (Layered held) :=
  inferInstanceAs (Decidable (held.IsChain Held.MayLieOn))

variable {held : List Held}

theorem heldAfter_concat (before : List Token) (token : Token) :
    heldAfter (before ++ [token]) = hold (heldAfter before) token :=
  List.foldl_concat ..

/-- A conversion goes on with what is held. What has come out by then depends on
nothing that follows, so the output has been fixed when the rest is read. -/
theorem exists_convert_append (before : List Token) (held : List Held) :
    ∃ output, ∀ after,
      convert held (before ++ after) = output ++ convert (before.foldl hold held) after := by
  induction before generalizing held with
  | nil => exact ⟨[], fun after => rfl⟩
  | cons token rest ih =>
    obtain ⟨output, follow⟩ := ih (hold held token)
    refine ⟨released held token ++ output, ?_⟩
    intro after
    rw [List.cons_append, convert, follow, List.append_assoc, List.foldl_cons]

/-- What is held are tokens that were read, the latest on top. A token is laid
on top when it is read or never, and otherwise tokens are only removed. -/
theorem heldAfter_sublist (tokens : List Token) :
    ((heldAfter tokens).map Held.token).Sublist (tokens.filter isHeld).reverse := by
  induction tokens using List.reverseRecOn with
  | nil => exact .slnil
  | append_singleton before token ih =>
    rw [heldAfter_concat, List.filter_append, List.reverse_append]
    cases token with
    | number text => exact ih
    | operator op =>
      have kept : ((heldAfter before).dropWhile (Held.yieldsTo op)).Sublist (heldAfter before) :=
        List.dropWhile_sublist _
      exact ((kept.map Held.token).trans ih).cons_cons _
    | opening => exact ih.cons_cons _
    | closing =>
      have kept : (hold (heldAfter before) .closing).Sublist (heldAfter before) :=
        (List.drop_sublist 1 _).trans (List.dropWhile_sublist _)
      exact (kept.map Held.token).trans ih

/-! ## Layers -/

/-- An operator may lie on what is below its level. Only the topmost of what it
lies on matters, and that is what `Below` asks about. -/
theorem layered_operator_iff (op : Operator) :
    Layered (.operator op :: held) ↔ Below op.precedence held ∧ Layered held := by
  rw [Layered, Layered, List.isChain_cons]
  apply and_congr_left
  intro _
  cases held with
  | nil => simp [Below]
  | cons item later =>
    cases item with
    | operator lower => simp [Below, Held.MayLieOn]
    | opening => simp [Below, Held.MayLieOn]

/-- An opening parenthesis may lie on anything. -/
theorem layered_opening_iff : Layered (.opening :: held) ↔ Layered held := by
  rw [Layered, Layered, List.isChain_cons]
  exact and_iff_right fun _ _ => trivial

/-- What does not give way to an operator is below its level: removal stops at
the first that stays, and the condition is about that one. -/
theorem below_dropWhile (op : Operator) (held : List Held) :
    Below op.precedence (held.dropWhile (Held.yieldsTo op)) := by
  intro lower later same
  have stays := List.head?_dropWhile_not (Held.yieldsTo op) held
  rw [same] at stays
  simpa [Held.yieldsTo] using stays

/-- Every token keeps what is held layered. Only an operator lays something on
what may not bear it, and it has removed that before. Numbers change nothing,
and a closing parenthesis only removes from the top. -/
theorem Layered.layered_hold (layered : Layered held) (token : Token) :
    Layered (hold held token) := by
  cases token with
  | number text => exact layered
  | operator op =>
    have kept : Layered (held.dropWhile (Held.yieldsTo op)) :=
      layered.suffix (List.dropWhile_suffix _)
    exact (layered_operator_iff op).mpr ⟨below_dropWhile op held, kept⟩
  | opening => exact layered_opening_iff.mpr layered
  | closing => exact layered.suffix ((List.drop_suffix 1 _).trans (List.dropWhile_suffix _))

/-- What is held is layered after any tokens, by induction on their end: it is
so at first, and the last token keeps it so. -/
theorem layered_heldAfter (tokens : List Token) : Layered (heldAfter tokens) := by
  induction tokens using List.reverseRecOn with
  | nil => exact .nil
  | append_singleton before token ih =>
    rw [heldAfter_concat]
    exact ih.layered_hold token

/-- What is layered is held after its own tokens: read from the bottom to the
top, none of them removes another. For an operator this is the condition that it
lies on something below its level. -/
theorem Layered.heldAfter_eq (layered : Layered held) :
    heldAfter (held.map Held.token).reverse = held := by
  induction held with
  | nil => rfl
  | cons item later ih =>
    rw [List.map_cons, List.reverse_cons, heldAfter_concat]
    cases item with
    | operator op =>
      obtain ⟨below, layered⟩ := (layered_operator_iff op).mp layered
      rw [ih layered]
      exact congrArg (Held.operator op :: ·) below.dropWhile_eq_self
    | opening =>
      rw [ih (layered_opening_iff.mp layered)]
      rfl

/-! ## Runs of operators -/

/-- To be layered is a matter of operators without a parenthesis between them:
the later one is held, the more tightly it binds. One direction restricts the
chain to a run; for the other, neighbours that are operators are a run of
two. -/
theorem layered_iff (held : List Held) :
    Layered held ↔ ∀ run : List Operator, run.map Held.operator <:+: held →
      (run.map Operator.precedence).Pairwise (· > ·) := by
  constructor
  · intro layered run within
    have chain : (run.map Held.operator).IsChain Held.MayLieOn := layered.infix within
    rw [List.isChain_map] at chain
    rw [← List.isChain_iff_pairwise, List.isChain_map]
    exact chain
  · intro descends
    induction held with
    | nil => exact .nil
    | cons item later ih =>
      have kept : Layered later := ih fun run within => descends run (List.infix_cons within)
      cases item with
      | opening => exact layered_opening_iff.mpr kept
      | operator upper =>
        refine (layered_operator_iff upper).mpr ⟨?_, kept⟩
        rintro lower rest rfl
        have pair := descends [upper, lower] ⟨[], rest, rfl⟩
        simpa using pair

/-- Of operators that bind less and less tightly there are no more than levels,
since each precedence is positive and smaller than the one before. -/
theorem length_le_of_descends {run : List Operator} {bound : Nat}
    (descends : (run.map Operator.precedence).Pairwise (· > ·))
    (bounded : ∀ op ∈ run, op.precedence ≤ bound) : run.length ≤ bound := by
  induction run generalizing bound with
  | nil => exact Nat.zero_le bound
  | cons op rest ih =>
    obtain ⟨above, descends⟩ := List.pairwise_cons.mp descends
    have fewer : rest.length ≤ op.precedence - 1 := by
      apply ih descends
      intro other member
      have less : other.precedence < op.precedence := above _ (List.mem_map_of_mem member)
      omega
    have first := bounded op List.mem_cons_self
    have positive := op.precedence_pos
    rw [List.length_cons]
    omega

/-! ## Parentheses -/

/-- An operator removes no parenthesis, because no parenthesis gives way to
it. -/
theorem count_opening_dropWhile (op : Operator) (held : List Held) :
    (held.dropWhile (Held.yieldsTo op)).count .opening = held.count .opening := by
  have absent : Held.opening ∉ held.takeWhile (Held.yieldsTo op) := by
    intro member
    exact Bool.false_ne_true (List.mem_takeWhile_imp member)
  have parts := congrArg (List.count .opening)
    (@List.takeWhile_append_dropWhile _ (Held.yieldsTo op) held)
  rwa [List.count_append, List.count_eq_zero.mpr absent, Nat.zero_add] at parts

/-- A closing parenthesis removes one opening parenthesis, if any is held: it
removes operators as far as the first of them, and then that one. -/
theorem count_opening_drop (held : List Held) :
    ((held.dropWhile (· ≠ .opening)).drop 1).count .opening = held.count .opening - 1 := by
  induction held with
  | nil => rfl
  | cons item later ih =>
    cases item with
    | operator op => simpa using ih
    | opening => simp

/-- Every token changes the number of parentheses held as it changes that of
unmatched ones. The other count, that of closing ones, does not matter to it. -/
theorem count_opening_hold (held : List Held) (token : Token) (closings : Nat) :
    (hold held token).count .opening =
      (Token.countUnmatched (closings, held.count .opening) token).2 := by
  cases token with
  | number text => rfl
  | operator op =>
    rw [hold, List.count_cons_of_ne (by simp), count_opening_dropWhile]
    rfl
  | opening => exact List.count_cons_self
  | closing =>
    rw [hold, count_opening_drop]
    cases held.count .opening <;> rfl

/-- After any tokens, as many parentheses are held as the tokens have unmatched
opening ones. Both numbers change alike with every token. -/
theorem count_opening_heldAfter (tokens : List Token) :
    (heldAfter tokens).count .opening = Token.unclosed tokens := by
  induction tokens using List.reverseRecOn with
  | nil => rfl
  | append_singleton before token ih =>
    rw [heldAfter_concat, count_opening_hold _ _ (Token.unopened before), ih]
    exact congrArg Prod.snd (Token.unmatched_concat before token).symm

/-- What is held at any point of a conversion. It is what the conversion goes on
with, whatever follows. It consists of operators and opening parentheses that
were read, the latest on top. Where operators are held without a parenthesis
between them, precedences increase strictly from the bottom to the top, so that
there are two at most. As many parentheses are held as there are positions of an
opening one that no closing one behind it has matched. No more can be said of
the order of operators: whatever obeys it is held after some tokens.

Proof: `Layered` holds of nothing and is kept by every token, since an operator
first removes all that may not bear it. A run of operators inherits the order,
and precedences are 1 or 2. The parentheses are counted along with the tokens,
as the count of unmatched ones is. What is layered is held after its own tokens,
read from the bottom to the top. -/
theorem heldAfter_is_layered :
    (∀ before : List Token,
      (∃ output, ∀ after,
        ofTokens (before ++ after) = output ++ convert (heldAfter before) after) ∧
      ((heldAfter before).map Held.token).Sublist (before.filter isHeld).reverse ∧
      (∀ run : List Operator, run.map Held.operator <:+: heldAfter before →
        (run.map Operator.precedence).Pairwise (· > ·) ∧ run.length ≤ 2) ∧
      (heldAfter before).count .opening =
        (List.range before.length).countP fun first => Token.IsUnclosed before first) ∧
    ∀ held : List Held,
      (∀ run : List Operator, run.map Held.operator <:+: held →
        (run.map Operator.precedence).Pairwise (· > ·)) →
      ∃ before, heldAfter before = held := by
  constructor
  · intro before
    refine ⟨exists_convert_append before [], heldAfter_sublist before, ?_, ?_⟩
    · intro run within
      have descends := (layered_iff _).mp (layered_heldAfter before) run within
      exact ⟨descends, length_le_of_descends descends fun op _ => op.precedence_le⟩
    · rw [count_opening_heldAfter, Token.unclosed_eq_countP]
  · intro held descends
    exact ⟨_, ((layered_iff held).mpr descends).heldAfter_eq⟩

/-- The tokens of `1)+2*(3-4*(5)`, of whose parentheses the first closing and
the first opening one have no partner. -/
def nested : List Token :=
  [.number ['1'], .closing, .operator .add, .number ['2'], .operator .multiply, .opening,
    .number ['3'], .operator .subtract, .number ['4'], .operator .multiply, .opening,
    .number ['5'], .closing]

/-- After `1)+2*(3-4*(5)`, two operators are held on each side of the
parenthesis at position 5. With another parenthesis on that one, the same is
layered and so is held after other tokens. -/
theorem nested_is_layered :
    heldAfter nested =
        [.operator .multiply, .operator .subtract, .opening, .operator .multiply, .operator .add] ∧
      [.multiply, .subtract].map Held.operator <:+: heldAfter nested ∧
      ([.multiply, .subtract].map Operator.precedence).Pairwise (· > ·) ∧
      ((List.range nested.length).filter fun first => Token.IsUnclosed nested first) = [5] ∧
      (heldAfter nested).count .opening = 1 ∧
      ∃ before, heldAfter before =
        [.operator .multiply, .operator .subtract, .opening, .opening, .operator .multiply,
          .operator .add] := by
  have top : [.multiply, .subtract].map Held.operator <:+: heldAfter nested :=
    ⟨[], [.opening, .operator .multiply, .operator .add], by decide⟩
  obtain ⟨after, exact⟩ := heldAfter_is_layered
  obtain ⟨_, _, runs, counted⟩ := after nested
  refine ⟨by decide, top, (runs _ top).1, by decide, counted.trans (by decide), exact _ ?_⟩
  exact (layered_iff _).mp (by decide)

end Postfix

end Reckon
