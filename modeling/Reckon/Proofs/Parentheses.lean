import Mathlib.Data.List.Induction
import Reckon.Proofs.Conversion
import Reckon.Proofs.Scanning

/-!
# Parentheses without a partner

An opening parenthesis and a closing one behind it are *partners* if what stands
between them is balanced, that is, if reading it opens and closes groups without
ever closing one that it has not opened. Parentheses of both kinds may lack a
partner, in any order and at any depth. The converter does not refuse them: it
treats a closing parenthesis without a partner as if its partner stood in front
of everything, and an opening one as if its partner stood behind everything.

`complete` adds the missing partners there. The result is balanced
(`balanced_complete`): reading tokens with as many groups open as they have
unmatched closing parentheses leaves as many open as they have unmatched opening
ones (`depthAfter?_unmatched`). In balanced tokens every parenthesis has a
partner, so one that had none before has found it among the added ones.

Counting from left to right and looking for partners agree: as many opening
parentheses are counted as unmatched as there are positions of one without a
partner (`unclosed_eq_countP`).
-/

namespace Reckon

namespace Token

/-- How many groups are open after a token. A closing parenthesis needs an open
group, so reading fails at one that nothing before it opens. -/
def deepen (depth : Nat) : Token → Option Nat
  | .number _ => some depth
  | .operator _ => some depth
  | .opening => some (depth + 1)
  | .closing =>
      match depth with
      | 0 => none
      | outer + 1 => some outer

/-- How many groups are open after some tokens, if this many were open before
them. There is no answer if one of the tokens closes more than is open. -/
def depthAfter? (depth : Nat) (tokens : List Token) : Option Nat :=
  tokens.foldlM deepen depth

/-- The tokens close the groups that they open, and no others. Reading must not
fail on the way, so a closing parenthesis never stands before its opening
one. -/
def Balanced (tokens : List Token) : Prop :=
  depthAfter? 0 tokens = some 0

/-- The parentheses at two positions belong together: the first opens, the
second closes behind it, and what stands between them is balanced. -/
structure Partners (tokens : List Token) (first last : Nat) : Prop where
  opens : tokens[first]? = some .opening
  closes : tokens[last]? = some .closing
  inOrder : first < last
  between : Balanced ((tokens.take last).drop (first + 1))

/-- An opening parenthesis stands at a position, and none behind it is its
partner. -/
def IsUnclosed (tokens : List Token) (first : Nat) : Prop :=
  tokens[first]? = some .opening ∧ ∀ last, ¬Partners tokens first last

/-- Count one more token: an opening parenthesis is unmatched at first, and a
closing one matches the last unmatched opening one, if there is any. Only a
closing parenthesis that finds none is unmatched for good. -/
def countUnmatched : Nat × Nat → Token → Nat × Nat
  | (closings, openings), .opening => (closings, openings + 1)
  | (closings, openings + 1), .closing => (closings, openings)
  | (closings, 0), .closing => (closings + 1, 0)
  | counts, _ => counts

/-- The numbers of unmatched closing and of unmatched opening parentheses. -/
def unmatched (tokens : List Token) : Nat × Nat :=
  tokens.foldl countUnmatched (0, 0)

/-- The number of closing parentheses that nothing before them opens. -/
def unopened (tokens : List Token) : Nat := (unmatched tokens).1

/-- The number of opening parentheses that nothing behind them closes. -/
def unclosed (tokens : List Token) : Nat := (unmatched tokens).2

/-- The tokens with the missing parentheses at the ends. -/
def complete (tokens : List Token) : List Token :=
  List.replicate (unopened tokens) .opening ++ tokens ++ List.replicate (unclosed tokens) .closing

/-! ## Depth -/

theorem depthAfter?_cons (depth : Nat) (token : Token) (rest : List Token) :
    depthAfter? depth (token :: rest) = (deepen depth token).bind (depthAfter? · rest) :=
  rfl

/-- Tokens are read one part after another, the second at the depth that the
first leaves. -/
theorem depthAfter?_append (depth : Nat) (before after : List Token) :
    depthAfter? depth (before ++ after) = (depthAfter? depth before).bind (depthAfter? · after) :=
  List.foldlM_append

/-- The last token is read at the depth that the others leave. -/
theorem depthAfter?_concat (depth : Nat) (before : List Token) (token : Token) :
    depthAfter? depth (before ++ [token]) = (depthAfter? depth before).bind (deepen · token) := by
  rw [depthAfter?_append]
  congr 1
  funext middle
  exact bind_pure (deepen middle token)

/-- One more open group is still open afterwards. Reading that succeeds never
touches the groups below those it needs. -/
theorem depthAfter?_succ {tokens : List Token} {depth final : Nat}
    (read : depthAfter? depth tokens = some final) :
    depthAfter? (depth + 1) tokens = some (final + 1) := by
  induction tokens generalizing depth with
  | nil => exact congrArg some (congrArg Nat.succ (Option.some.inj read))
  | cons token rest ih =>
    rw [depthAfter?_cons] at read ⊢
    cases token with
    | number text => exact ih read
    | operator op => exact ih read
    | opening => exact ih read
    | closing =>
      cases depth with
      | zero => cases read
      | succ outer => exact ih read

theorem depthAfter?_openings (depth count : Nat) :
    depthAfter? depth (List.replicate count .opening) = some (depth + count) := by
  induction count generalizing depth with
  | zero => rfl
  | succ count ih =>
    rw [List.replicate_succ, depthAfter?_cons]
    exact (ih (depth + 1)).trans (congrArg some (by omega))

/-- As many closing parentheses as there are open groups close all of them. -/
theorem depthAfter?_closings (count : Nat) :
    depthAfter? count (List.replicate count .closing) = some 0 := by
  induction count with
  | zero => rfl
  | succ count ih => exact ih

theorem unmatched_concat (before : List Token) (token : Token) :
    unmatched (before ++ [token]) = countUnmatched (unmatched before) token :=
  List.foldl_concat ..

/-- Read with as many groups open as it takes, tokens leave those open that they
do not close. The induction is on the tokens from the last to the first, because
both sides are computed from left to right; a closing parenthesis that is
unmatched asks for one more open group from the start (`depthAfter?_succ`). -/
theorem depthAfter?_unmatched (tokens : List Token) :
    depthAfter? (unopened tokens) tokens = some (unclosed tokens) := by
  induction tokens using List.reverseRecOn with
  | nil => rfl
  | append_singleton before token ih =>
    rw [unopened, unclosed] at ih ⊢
    rw [unmatched_concat, depthAfter?_concat]
    generalize unmatched before = found at ih ⊢
    obtain ⟨closings, openings⟩ := found
    cases token with
    | number text => simp only [countUnmatched, ih, Option.bind_some, deepen]
    | operator op => simp only [countUnmatched, ih, Option.bind_some, deepen]
    | opening => simp only [countUnmatched, ih, Option.bind_some, deepen]
    | closing =>
      cases openings with
      | zero => simp only [countUnmatched, depthAfter?_succ ih, Option.bind_some, deepen]
      | succ openings => simp only [countUnmatched, ih, Option.bind_some, deepen]

/-- With the missing parentheses at the ends, tokens are balanced: the added
ones open what the tokens need and close what they leave. -/
theorem balanced_complete (tokens : List Token) : Balanced (complete tokens) := by
  rw [Balanced, complete, depthAfter?_append, depthAfter?_append, depthAfter?_openings,
    Nat.zero_add, Option.bind_some, depthAfter?_unmatched, Option.bind_some, depthAfter?_closings]

/-! ## Partners -/

/-- Tokens that leave fewer groups open than they find close one of those they
find. Up to there, they close none of those below it.

The induction is on the tokens; `inner` counts the groups open within the one to
close. -/
theorem exists_closing {tokens : List Token} {depth inner final : Nat}
    (read : depthAfter? (depth + 1 + inner) tokens = some final) (less : final ≤ depth) :
    ∃ before after, tokens = before ++ .closing :: after ∧ depthAfter? inner before = some 0 := by
  induction tokens generalizing inner with
  | nil =>
    have same : depth + 1 + inner = final := Option.some.inj read
    omega
  | cons token rest ih =>
    have onward {next : Nat} (moved : deepen inner token = some next)
        (further : depthAfter? (depth + 1 + next) rest = some final) :
        ∃ before after, token :: rest = before ++ .closing :: after ∧
          depthAfter? inner before = some 0 := by
      obtain ⟨before, after, rfl, closed⟩ := ih further
      exact ⟨token :: before, after, rfl, by rw [depthAfter?_cons, moved]; exact closed⟩
    cases token with
    | number text => exact onward rfl read
    | operator op => exact onward rfl read
    | opening => exact onward rfl read
    | closing =>
      cases inner with
      | zero => exact ⟨[], rest, rfl, rfl⟩
      | succ inner => exact onward rfl read

/-- Tokens that leave more groups open than they find open one that stays open.
From there on, they close none but their own.

The induction is on the tokens from the last to the first; `inner` counts the
groups open within the one that stays. -/
theorem exists_opening {tokens : List Token} {depth inner final : Nat}
    (read : depthAfter? depth tokens = some (final + 1 + inner)) (less : depth ≤ final) :
    ∃ before after, tokens = before ++ .opening :: after ∧ depthAfter? 0 after = some inner := by
  induction tokens using List.reverseRecOn generalizing inner with
  | nil =>
    have same : depth = final + 1 + inner := Option.some.inj read
    omega
  | append_singleton rest token ih =>
    have onward {earlier : Nat} (moved : deepen earlier token = some inner)
        (sooner : depthAfter? depth rest = some (final + 1 + earlier)) :
        ∃ before after, rest ++ [token] = before ++ .opening :: after ∧
          depthAfter? 0 after = some inner := by
      obtain ⟨before, after, rfl, opened⟩ := ih sooner
      refine ⟨before, after ++ [token], by simp, ?_⟩
      rw [depthAfter?_concat, opened]
      exact moved
    rw [depthAfter?_concat, Option.bind_eq_some_iff] at read
    obtain ⟨middle, sooner, last⟩ := read
    cases token with
    | number text =>
      obtain rfl : middle = final + 1 + inner := Option.some.inj last
      exact onward rfl sooner
    | operator op =>
      obtain rfl : middle = final + 1 + inner := Option.some.inj last
      exact onward rfl sooner
    | opening =>
      obtain rfl : middle = final + inner := Nat.succ.inj ((Option.some.inj last).trans (by omega))
      cases inner with
      | zero => exact ⟨rest, [], rfl, rfl⟩
      | succ inner =>
        have order : final + (inner + 1) = final + 1 + inner := by omega
        exact onward rfl (order ▸ sooner)
    | closing =>
      cases middle with
      | zero => cases last
      | succ outer =>
        obtain rfl : outer = final + 1 + inner := Option.some.inj last
        exact @onward (inner + 1) rfl sooner

/-- Parentheses around balanced tokens are partners, wherever they stand. -/
theorem Balanced.partners_around {inner : List Token} (balanced : Balanced inner)
    (before after : List Token) :
    Partners (before ++ .opening :: (inner ++ .closing :: after)) before.length
      (before.length + (inner.length + 1)) := by
  refine ⟨by simp, ?_, by omega, ?_⟩
  · rw [List.getElem?_append_right (Nat.le_add_right ..), Nat.add_sub_cancel_left]
    simp
  · rw [List.take_length_add_append, List.drop_length_add_append]
    simpa using balanced

/-- What stands at a position parts what is before it from what is behind it.
With the parts at hand, positions become lengths. -/
theorem exists_parts {tokens : List Token} {position : Nat} {token : Token}
    (here : tokens[position]? = some token) :
    ∃ before after, tokens = before ++ token :: after ∧ before.length = position := by
  obtain ⟨present, rfl⟩ := List.getElem?_eq_some_iff.mp here
  refine ⟨tokens.take position, tokens.drop (position + 1), ?_, ?_⟩
  · rw [List.getElem_cons_drop, List.take_append_drop]
  · exact List.length_take_of_le (Nat.le_of_lt present)

/-- In balanced tokens, every opening parenthesis has a partner. The group that
it opens is closed at the end, and the first token that closes it is the partner
(`exists_closing`). -/
theorem Balanced.exists_last {tokens : List Token} (balanced : Balanced tokens) {first : Nat}
    (opens : tokens[first]? = some .opening) : ∃ last, Partners tokens first last := by
  obtain ⟨before, behind, rfl, rfl⟩ := exists_parts opens
  rw [Balanced, depthAfter?_append, Option.bind_eq_some_iff] at balanced
  obtain ⟨depth, _, read⟩ := balanced
  obtain ⟨inner, after, rfl, closed⟩ := @exists_closing _ depth 0 _ read (Nat.zero_le depth)
  exact ⟨_, Balanced.partners_around closed before after⟩

/-- In balanced tokens, every closing parenthesis has a partner: the last token
that opens the group it closes (`exists_opening`). -/
theorem Balanced.exists_first {tokens : List Token} (balanced : Balanced tokens) {last : Nat}
    (closes : tokens[last]? = some .closing) : ∃ first, Partners tokens first last := by
  obtain ⟨front, after, rfl, rfl⟩ := exists_parts closes
  rw [Balanced, depthAfter?_append, Option.bind_eq_some_iff] at balanced
  obtain ⟨depth, read, further⟩ := balanced
  cases depth with
  | zero => cases further
  | succ depth =>
    obtain ⟨before, inner, rfl, opened⟩ := @exists_opening _ 0 0 _ read (Nat.zero_le depth)
    refine ⟨before.length, ?_⟩
    have partners := Balanced.partners_around opened before after
    simpa using partners

/-- Tokens around others change no partners among these. What stands between two
of them is the same, and only that decides. -/
theorem partners_shift_iff (front back : List Token) {tokens : List Token} {first last : Nat}
    (inside : last < tokens.length) :
    Partners (front ++ tokens ++ back) (front.length + first) (front.length + last) ↔
      Partners tokens first last := by
  have unmoved {position : Nat} (within : position < tokens.length) :
      (front ++ tokens ++ back)[front.length + position]? = tokens[position]? := by
    rw [List.append_assoc, List.getElem?_append_right (Nat.le_add_right ..),
      Nat.add_sub_cancel_left, List.getElem?_append_left within]
  have between : ((front ++ tokens ++ back).take (front.length + last)).drop
      (front.length + first + 1) = (tokens.take last).drop (first + 1) := by
    rw [List.append_assoc, List.take_length_add_append, Nat.add_assoc, List.drop_length_add_append,
      List.take_append_of_le_length (Nat.le_of_lt inside)]
  constructor
  · rintro ⟨opens, closes, inOrder, balanced⟩
    have less := Nat.lt_of_add_lt_add_left inOrder
    exact ⟨unmoved (Nat.lt_trans less inside) ▸ opens, unmoved inside ▸ closes, less,
      between ▸ balanced⟩
  · rintro ⟨opens, closes, inOrder, balanced⟩
    exact ⟨unmoved (Nat.lt_trans inOrder inside) ▸ opens, unmoved inside ▸ closes,
      Nat.add_lt_add_left inOrder _, between ▸ balanced⟩

/-- Partners stay partners when the missing parentheses are added, and no others
become partners. All positions move by the number of parentheses in front. -/
theorem partners_complete_iff {tokens : List Token} {first last : Nat}
    (inside : last < tokens.length) :
    Partners (complete tokens) (unopened tokens + first) (unopened tokens + last) ↔
      Partners tokens first last := by
  have shifted := @partners_shift_iff (List.replicate (unopened tokens) .opening)
    (List.replicate (unclosed tokens) .closing) tokens first last inside
  rwa [List.length_replicate] at shifted

/-- The missing parentheses move the other tokens, but they change none. -/
theorem getElem?_complete {tokens : List Token} {position : Nat} {token : Token}
    (here : tokens[position]? = some token) :
    (complete tokens)[unopened tokens + position]? = some token := by
  obtain ⟨present, _⟩ := List.getElem?_eq_some_iff.mp here
  rw [complete, List.append_assoc, List.getElem?_append_right (by simp), List.length_replicate,
    Nat.add_sub_cancel_left, List.getElem?_append_left present, here]

/-- A closing parenthesis without a partner finds one at the very start of the
complete tokens. It has a partner there, since these are balanced, and if this
were one of the tokens themselves it would have been its partner before. -/
theorem exists_first_complete {tokens : List Token} {last : Nat}
    (closes : tokens[last]? = some .closing) (alone : ∀ first, ¬Partners tokens first last) :
    ∃ first < unopened tokens, Partners (complete tokens) first (unopened tokens + last) := by
  obtain ⟨first, partners⟩ := (balanced_complete tokens).exists_first (getElem?_complete closes)
  refine ⟨first, ?_, partners⟩
  by_contra within
  obtain ⟨inner, rfl⟩ := Nat.exists_eq_add_of_le (Nat.not_lt.mp within)
  have inside := (List.getElem?_eq_some_iff.mp closes).1
  exact alone inner ((partners_complete_iff inside).mp partners)

/-- An opening parenthesis without a partner finds one at the very end of the
complete tokens, for the same reason. -/
theorem exists_last_complete {tokens : List Token} {first : Nat}
    (opens : tokens[first]? = some .opening) (alone : ∀ last, ¬Partners tokens first last) :
    ∃ last ≥ unopened tokens + tokens.length,
      Partners (complete tokens) (unopened tokens + first) last := by
  obtain ⟨last, partners⟩ := (balanced_complete tokens).exists_last (getElem?_complete opens)
  refine ⟨last, ?_, partners⟩
  by_contra within
  have behind : unopened tokens ≤ last :=
    Nat.le_of_lt (Nat.lt_of_le_of_lt (Nat.le_add_right ..) partners.inOrder)
  obtain ⟨inner, rfl⟩ := Nat.exists_eq_add_of_le behind
  exact alone inner ((partners_complete_iff (by omega)).mp partners)

/-! ## Counting -/

theorem Partners.lt_length {tokens : List Token} {first last : Nat}
    (partners : Partners tokens first last) : last < tokens.length :=
  (List.getElem?_eq_some_iff.mp partners.closes).1

instance (tokens : List Token) : Decidable (Balanced tokens) :=
  inferInstanceAs (Decidable (depthAfter? 0 tokens = some 0))

instance (tokens : List Token) (first last : Nat) : Decidable (Partners tokens first last) :=
  decidable_of_iff
    (tokens[first]? = some .opening ∧ tokens[last]? = some .closing ∧ first < last ∧
      Balanced ((tokens.take last).drop (first + 1)))
    ⟨fun ⟨opens, closes, inOrder, between⟩ => ⟨opens, closes, inOrder, between⟩,
      fun ⟨opens, closes, inOrder, between⟩ => ⟨opens, closes, inOrder, between⟩⟩

instance (tokens : List Token) (first : Nat) : Decidable (IsUnclosed tokens first) :=
  decidable_of_iff
    (tokens[first]? = some .opening ∧ ∀ last < tokens.length, ¬Partners tokens first last)
    (and_congr_right fun _ =>
      ⟨fun alone last partners => alone last partners.lt_length partners,
        fun alone last _ => alone last⟩)

/-- The whole has the unmatched parentheses of its two parts, except for the
pairs that unmatched opening ones of the first part form with unmatched closing
ones of the second. -/
theorem unmatched_append (first second : List Token) :
    unmatched (first ++ second) =
      (unopened first + (unopened second - unclosed first),
        unclosed first - unopened second + unclosed second) := by
  induction second using List.reverseRecOn with
  | nil => simp [unopened, unclosed, unmatched]
  | append_singleton before token ih =>
    rw [← List.append_assoc, unmatched_concat, ih]
    simp only [unopened, unclosed, unmatched_concat]
    generalize unmatched first = outer
    generalize unmatched before = inner
    obtain ⟨outerClosings, outerOpenings⟩ := outer
    obtain ⟨closings, openings⟩ := inner
    cases token with
    | number text => rfl
    | operator op => rfl
    | opening => rfl
    | closing =>
      cases openings with
      | succ openings => rfl
      | zero =>
        -- Nothing is open in the second part, so the first part has to provide the partner.
        cases left : outerOpenings - closings <;>
          simp only [countUnmatched, Nat.add_zero, Prod.mk.injEq] <;> omega

/-- A first token adds an unmatched opening parenthesis if it is one and nothing
behind closes it. This turns the count, which goes from left to right, into a
recursion on the tokens. -/
theorem unclosed_cons (token : Token) (rest : List Token) :
    unclosed (token :: rest) =
      unclosed rest + if token = .opening ∧ unopened rest = 0 then 1 else 0 := by
  have parts : unclosed (token :: rest) = unclosed [token] - unopened rest + unclosed rest :=
    congrArg Prod.snd (unmatched_append [token] rest)
  rw [parts, Nat.add_comm]
  cases token with
  | number text => simp [unclosed, unmatched, countUnmatched]
  | operator op => simp [unclosed, unmatched, countUnmatched]
  | closing => simp [unclosed, unmatched, countUnmatched]
  | opening =>
    have single : unclosed [.opening] = 1 := rfl
    by_cases free : unopened rest = 0
    · simp [single, free]
    · simp only [single, free, and_false, if_false]
      omega

/-- Some closing parenthesis is unmatched exactly if all that stands before one
is balanced. That one is the first unmatched closing parenthesis: whatever is
open before it would be closed by it. -/
theorem unopened_ne_zero_iff (tokens : List Token) :
    unopened tokens ≠ 0 ↔
      ∃ before after, tokens = before ++ .closing :: after ∧ Balanced before := by
  constructor
  · intro present
    induction tokens using List.reverseRecOn with
    | nil => exact absurd rfl present
    | append_singleton others token ih =>
      by_cases earlier : unopened others = 0
      · have parts : unopened (others ++ [token]) =
            unopened others + (unopened [token] - unclosed others) :=
          congrArg Prod.fst (unmatched_append others [token])
        rw [parts, earlier, Nat.zero_add] at present
        cases token with
        | number text => exact absurd (Nat.zero_sub (unclosed others)) present
        | operator op => exact absurd (Nat.zero_sub (unclosed others)) present
        | opening => exact absurd (Nat.zero_sub (unclosed others)) present
        | closing =>
          have single : unopened [.closing] = 1 := rfl
          have closed : unclosed others = 0 := by omega
          have read := depthAfter?_unmatched others
          rw [earlier, closed] at read
          exact ⟨others, [], rfl, read⟩
      · obtain ⟨before, after, rfl, balanced⟩ := ih earlier
        exact ⟨before, after ++ [token], by simp, balanced⟩
  · rintro ⟨before, after, rfl, balanced⟩ absent
    have read := depthAfter?_unmatched (before ++ .closing :: after)
    rw [absent, depthAfter?_append, balanced] at read
    cases read

/-- An opening parenthesis in front has a partner exactly if the tokens behind
it have an unmatched closing one. -/
theorem exists_partners_zero_iff (rest : List Token) :
    (∃ last, Partners (.opening :: rest) 0 last) ↔ unopened rest ≠ 0 := by
  rw [unopened_ne_zero_iff]
  constructor
  · rintro ⟨last, opens, closes, inOrder, between⟩
    obtain ⟨inner, rfl⟩ := Nat.exists_eq_succ_of_ne_zero (Nat.ne_of_gt inOrder)
    obtain ⟨before, after, rfl, rfl⟩ := @exists_parts rest inner .closing closes
    exact ⟨before, after, rfl, by simpa using between⟩
  · rintro ⟨before, after, rfl, balanced⟩
    exact ⟨_, Balanced.partners_around balanced [] after⟩

/-- In front, an opening parenthesis has no partner if nothing behind it closes
it. -/
theorem isUnclosed_zero_iff (token : Token) (rest : List Token) :
    IsUnclosed (token :: rest) 0 ↔ token = .opening ∧ unopened rest = 0 := by
  rw [IsUnclosed, List.getElem?_cons_zero, Option.some.injEq]
  apply and_congr_right
  rintro rfl
  rw [← not_exists, exists_partners_zero_iff, not_not]

/-- A token in front changes nothing for the parentheses behind it, since
partners are decided by what stands between them. -/
theorem isUnclosed_succ_iff (token : Token) (rest : List Token) (first : Nat) :
    IsUnclosed (token :: rest) (first + 1) ↔ IsUnclosed rest first := by
  have shifted {last : Nat} (inside : last < rest.length) :
      Partners (token :: rest) (first + 1) (last + 1) ↔ Partners rest first last := by
    have moved := @partners_shift_iff [token] [] rest first last inside
    simpa [Nat.add_comm] using moved
  rw [IsUnclosed, IsUnclosed, List.getElem?_cons_succ]
  apply and_congr_right
  intro _
  constructor
  · intro alone last partners
    exact alone (last + 1) ((shifted partners.lt_length).mpr partners)
  · intro alone last partners
    obtain ⟨inner, rfl⟩ := Nat.exists_eq_succ_of_ne_zero (Nat.ne_zero_of_lt partners.inOrder)
    have inside : inner < rest.length := Nat.lt_of_succ_lt_succ partners.lt_length
    exact alone inner ((shifted inside).mp partners)

/-- The opening parentheses that are counted as unmatched are those without a
partner.

The induction is from the last token to the first: whether a parenthesis has a
partner depends only on what stands behind it. -/
theorem unclosed_eq_countP (tokens : List Token) :
    unclosed tokens =
      (List.range tokens.length).countP fun first => IsUnclosed tokens first := by
  induction tokens with
  | nil => rfl
  | cons token rest ih =>
    rw [unclosed_cons, ih, List.length_cons, List.range_succ_eq_map, List.countP_cons,
      List.countP_map]
    simp only [Function.comp_def, isUnclosed_zero_iff, isUnclosed_succ_iff, Nat.succ_eq_add_one,
      decide_eq_true_eq]

/-! ## In the text -/

theorem scan_openings (count : Nat) (text : List Char) :
    scan (List.replicate count '(' ++ text) = List.replicate count .opening ++ scan text := by
  induction count with
  | zero => rfl
  | succ count ih =>
    have step := @scan_append_mark '(' .opening rfl [] (List.replicate count '(' ++ text)
    exact step.trans (congrArg (Token.opening :: ·) ih)

/-- Closing parentheses behind a text are as many tokens behind its tokens. -/
theorem scan_closings (count : Nat) (text : List Char) :
    scan (text ++ List.replicate count ')') = scan text ++ List.replicate count .closing := by
  induction count generalizing text with
  | zero => simp
  | succ count ih =>
    have step := @scan_append_mark ')' .closing rfl text (List.replicate count ')')
    exact step.trans (congrArg (scan text ++ .closing :: ·) (ih []))

/-- Parentheses at the ends of an expression are parentheses at the ends of its
tokens. They are not replaced by other symbols, and they join no number. -/
theorem scan_normalize_surround (i j : Nat) (expression : List Char) :
    scan (normalize (List.replicate i '(' ++ expression ++ List.replicate j ')')) =
      List.replicate i .opening ++ scan (normalize expression) ++ List.replicate j .closing := by
  have opens : plainSymbol '(' = '(' := by decide
  have closes : plainSymbol ')' = ')' := by decide
  simp only [normalize, List.map_append, List.map_replicate, opens, closes, scan_closings,
    scan_openings]

end Token

namespace Postfix

open Token (Partners Balanced unopened unclosed complete)

/-- Parentheses without a partner mean parentheses at the ends. Any number of
opening parentheses in front and any number of closing ones behind leave the
postfix order as it is, and so they leave the outcome of an expression.

This goes in particular for the parentheses that are missing. With them the
tokens are balanced and partners stay partners. A closing parenthesis that had
no partner now has one at the very start, and an opening one that had none has
one at the very end.

Proof: the order is a property of the converter's stacks (`ofTokens_surround`):
an opening parenthesis at the bottom of the held operators holds nothing back,
and closing ones behind everything only release what the end releases anyway.
Partners are found by reading with a depth. The complete tokens are read without
failure (`depthAfter?_unmatched`), so every parenthesis has a partner in them;
one that had none cannot have got it among the old tokens, whose partners did
not change. -/
theorem parentheses_match_at_ends (tokens : List Token) :
    (∀ i j, ofTokens (List.replicate i .opening ++ tokens ++ List.replicate j .closing) =
      ofTokens tokens) ∧
    (ofTokens (complete tokens) = ofTokens tokens ∧ Balanced (complete tokens) ∧
      (∀ first last, Partners tokens first last →
        Partners (complete tokens) (unopened tokens + first) (unopened tokens + last)) ∧
      (∀ last, tokens[last]? = some .closing → (∀ first, ¬Partners tokens first last) →
        ∃ first < unopened tokens, Partners (complete tokens) first (unopened tokens + last)) ∧
      ∀ first, tokens[first]? = some .opening → (∀ last, ¬Partners tokens first last) →
        ∃ last ≥ unopened tokens + tokens.length,
          Partners (complete tokens) (unopened tokens + first) last) ∧
    ∀ i j expression, evaluate (List.replicate i '(' ++ expression ++ List.replicate j ')') =
      evaluate expression := by
  refine ⟨ofTokens_surround tokens, ⟨ofTokens_surround tokens _ _, Token.balanced_complete tokens,
    ?_, ?_, ?_⟩, ?_⟩
  · intro first last partners
    have inside := (List.getElem?_eq_some_iff.mp partners.closes).1
    exact (Token.partners_complete_iff inside).mpr partners
  · intro last closes alone
    exact Token.exists_first_complete closes alone
  · intro first opens alone
    exact Token.exists_last_complete opens alone
  · intro i j expression
    rw [evaluate, Token.scan_normalize_surround, ofTokens_surround, evaluate]

/-- The tokens of `1)*(2+3`, of whose parentheses neither has a partner. -/
def halfOpen : List Token :=
  [.number ['1'], .closing, .operator .multiply, .opening, .number ['2'], .operator .add,
    .number ['3']]

/-- In `(1)*(2+3)` the parentheses at the ends are their partners, and the order
is the same. -/
theorem halfOpen_matches_at_ends :
    ofTokens (complete halfOpen) = ofTokens halfOpen ∧
      (∃ first < 1, Partners (complete halfOpen) first 2) ∧
      ∃ last ≥ 8, Partners (complete halfOpen) 4 last := by
  obtain ⟨_, ⟨order, _, _, closing, opening⟩, _⟩ := parentheses_match_at_ends halfOpen
  refine ⟨order, closing 1 rfl ?_, opening 3 rfl ?_⟩
  · intro first partners
    obtain rfl : first = 0 := Nat.lt_one_iff.mp partners.inOrder
    cases partners.opens
  · intro last partners
    have none : ∀ last < halfOpen.length, 3 < last → halfOpen[last]? ≠ some .closing := by decide
    obtain ⟨present, _⟩ := List.getElem?_eq_some_iff.mp partners.closes
    exact none last present partners.inOrder partners.closes

end Postfix

end Reckon
