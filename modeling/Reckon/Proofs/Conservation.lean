import Mathlib.Data.List.Nodup
import Reckon.Proofs.Acceptance

/-!
# The converter loses nothing

Putting tokens in postfix order drops the parentheses and rearranges the rest.
To say which token goes where, output tokens are traced back to the positions
from which they come: `Traced` asks that no position be used twice and that a
number come out before every operator that stood behind it. The positions follow
the tokens through the conversion, from the input to what is held and from there
to the output (`exists_origins_released`), and a number never waits.

Since no parenthesis and no unknown operator comes out, an evaluation can stop
for two reasons only: a number is not a plain decimal, or an operator finds
fewer than two values.
-/

namespace Reckon.Postfix

/-- Output tokens come from these positions of the input. Equal tokens are told
apart in this way, so that "each once" and "after" can be said at all. -/
structure Traced (tokens output : List Token) (origins : List Nat) : Prop where
  /-- An output token is the input token at the position from which it comes. -/
  same : output.map some = origins.map fun position => tokens[position]?
  /-- No two output tokens come from one position. -/
  distinct : origins.Nodup
  /-- A number comes out before every operator that stood behind it. -/
  inOrder : ∀ first second text op, first < second → tokens[first]? = some (.number text) →
    tokens[second]? = some (.operator op) → [first, second].Sublist origins

/-- The positions of the tokens that are kept, counted from the given one on, so
that the positions of a rest are those in the whole input. -/
def keptPositions (start : Nat) (tokens : List Token) : List Nat :=
  ((tokens.zipIdx start).filter fun item => isKept item.1).map Prod.snd

section Origins

variable {tokens rest : List Token} {held : List Held} {waiting : List Nat} {start : Nat}

theorem keptPositions_cons (start : Nat) (token : Token) (rest : List Token) :
    keptPositions start (token :: rest) =
      (if isKept token then [start] else []) ++ keptPositions (start + 1) rest := by
  rw [keptPositions, List.zipIdx_cons, List.filter_cons]
  split <;> rfl

/-- The kept positions are those at which a kept token stands; the first
position listed is the one from which the count starts. -/
theorem mem_keptPositions_iff (position : Nat) :
    position ∈ keptPositions start rest ↔
      start ≤ position ∧ ∃ token, rest[position - start]? = some token ∧ isKept token = true := by
  constructor
  · intro member
    obtain ⟨⟨token, _⟩, listed, rfl⟩ := List.mem_map.mp member
    obtain ⟨present, kept⟩ := List.mem_filter.mp listed
    obtain ⟨least, found⟩ := List.mk_mem_zipIdx_iff_le_and_getElem?_sub.mp present
    exact ⟨least, token, found, kept⟩
  · rintro ⟨least, token, found, kept⟩
    have present := List.mk_mem_zipIdx_iff_le_and_getElem?_sub.mpr ⟨least, found⟩
    exact List.mem_map.mpr ⟨(token, position), List.mem_filter.mpr ⟨present, kept⟩, rfl⟩

/-- No position is counted twice, since the positions come from a numbering. -/
theorem nodup_keptPositions (start : Nat) (tokens : List Token) :
    (keptPositions start tokens).Nodup := by
  have whole : ((tokens.zipIdx start).map Prod.snd).Nodup := by
    rw [List.zipIdx_map_snd]
    exact List.nodup_range'
  exact whole.sublist (List.filter_sublist.map Prod.snd)

/-- The positions of what is held and of an incoming token become those of what
is released and of what is held afterwards. A number is released at once.

Whatever a token releases, it cuts what is held in two, and the list of the
positions is cut at the same place. An operator then joins the part that
stays. -/
theorem exists_origins_released {token : Token}
    (same : (operators held).map some = waiting.map fun position => tokens[position]?)
    (here : tokens[start]? = some token) :
    ∃ now later : List Nat,
      (released held token).map some = now.map (fun position => tokens[position]?) ∧
      (operators (hold held token)).map some = later.map (fun position => tokens[position]?) ∧
      (now ++ later).Perm (waiting ++ if isKept token then [start] else []) ∧
      (token.isNumber = true → now = [start]) := by
  -- What is held is cut in two, and so are the positions of its operators.
  have cut {front back : List Held} (parts : operators front ++ operators back = operators held) :
      ∃ first second, waiting = first ++ second ∧
        (operators front).map some = first.map (fun position => tokens[position]?) ∧
        (operators back).map some = second.map (fun position => tokens[position]?) := by
    rw [← parts, List.map_append] at same
    obtain ⟨first, second, rfl, front, back⟩ := List.map_eq_append_iff.mp same.symm
    exact ⟨first, second, rfl, front.symm, back.symm⟩
  cases token with
  | number text =>
    exact ⟨[start], waiting, by simp [released, here], same, List.perm_append_comm, fun _ => rfl⟩
  | operator op =>
    have parts : operators (held.takeWhile (Held.yieldsTo op)) ++
        operators (held.dropWhile (Held.yieldsTo op)) = operators held := by
      rw [← operators_append, List.takeWhile_append_dropWhile]
    obtain ⟨first, second, rfl, front, back⟩ := cut parts
    refine ⟨first, start :: second, front, ?_, ?_, fun number => absurd number Bool.false_ne_true⟩
    · rw [List.map_cons, here, ← back]
      rfl
    · have behind : (start :: second).Perm (second ++ [start]) :=
        (List.perm_append_singleton start second).symm
      rw [List.append_assoc]
      exact behind.append_left first
  | opening =>
    exact ⟨[], waiting, rfl, same, List.Perm.of_eq (List.append_nil waiting).symm,
      fun number => absurd number Bool.false_ne_true⟩
  | closing =>
    obtain ⟨first, second, rfl, front, back⟩ := cut (operators_closing held)
    exact ⟨first, second, front, back, List.Perm.of_eq (List.append_nil _).symm,
      fun number => absurd number Bool.false_ne_true⟩

/-- Where the tokens come from that are released from some point of the input
on: from the positions of the operators held at that point, and from the kept
positions behind it.

Proof: induction on the rest of the input, with `exists_origins_released` for
one token. The order needs care only for the token that comes in: if it is a
number, it is released before anything behind it, and its position comes
first. -/
theorem exists_origins_convert (before : List Token) (whole : before ++ rest = tokens)
    (same : (operators held).map some = waiting.map fun position => tokens[position]?) :
    ∃ origins : List Nat,
      (convert held rest).map some = origins.map (fun position => tokens[position]?) ∧
      origins.Perm (waiting ++ keptPositions before.length rest) ∧
      ∀ first second text op, before.length ≤ first → first < second →
        tokens[first]? = some (.number text) → tokens[second]? = some (.operator op) →
          [first, second].Sublist origins := by
  induction rest generalizing before held waiting with
  | nil =>
    refine ⟨waiting, same, List.Perm.of_eq (List.append_nil waiting).symm, ?_⟩
    intro first second text op least _ number _
    rw [← whole, List.append_nil, List.getElem?_eq_none least] at number
    cases number
  | cons token rest ih =>
    have here : tokens[before.length]? = some token := by simp [← whole]
    have onward : before ++ [token] ++ rest = tokens := by simpa using whole
    have length : (before ++ [token]).length = before.length + 1 := List.length_append
    obtain ⟨now, later, released, held', moved, immediate⟩ := exists_origins_released same here
    obtain ⟨origins, follow, positions, inOrder⟩ := ih (before ++ [token]) onward held'
    rw [length] at positions inOrder
    refine ⟨now ++ origins, ?_, ?_, ?_⟩
    · rw [convert, List.map_append, List.map_append, released, follow]
    · have follows := positions.append_left now
      have moves := moved.append_right (keptPositions (before.length + 1) rest)
      rw [List.append_assoc, List.append_assoc, ← keptPositions_cons] at moves
      exact follows.trans moves
    · intro first second text op least less number operator
      rcases Nat.eq_or_lt_of_le least with rfl | beyond
      · obtain rfl : token = .number text := Option.some.inj (here.symm.trans number)
        have behind : second ∈ keptPositions (before.length + 1) rest := by
          rw [← onward, List.getElem?_append_right (length ▸ less), length] at operator
          exact (mem_keptPositions_iff second).mpr ⟨less, _, operator, rfl⟩
        have released := positions.mem_iff.mpr (List.mem_append_right later behind)
        rw [immediate rfl]
        exact (List.singleton_sublist.mpr released).cons_cons _
      · have sublist := inOrder first second text op beyond less number operator
        exact sublist.trans (List.sublist_append_right now origins)

/-- Every token that comes out can be traced back to the input. At the start
nothing is held, so all origins are kept positions, and these are distinct. -/
theorem exists_traced (tokens : List Token) :
    ∃ origins, Traced tokens (ofTokens tokens) origins := by
  obtain ⟨origins, same, positions, inOrder⟩ :=
    @exists_origins_convert tokens tokens [] [] [] (List.nil_append tokens) rfl
  refine ⟨origins, same, positions.nodup_iff.mpr (nodup_keptPositions 0 tokens), ?_⟩
  intro first second text op
  exact inOrder first second text op (Nat.zero_le first)

end Origins

/-! ## Numbers and operators -/

/-- Held operators are no numbers, so that nothing held can get between the
numbers of the output. -/
theorem filter_isNumber_operators (held : List Held) :
    (operators held).filter Token.isNumber = [] := by
  apply List.filter_eq_nil_iff.mpr
  intro token member
  obtain ⟨item, _, shown⟩ := List.mem_filterMap.mp member
  cases item with
  | operator op =>
    cases shown
    exact Bool.false_ne_true
  | opening => cases shown

/-- Numbers pass through the conversion in their order: each is released at
once, and what an operator or a parenthesis releases contains none. -/
theorem filter_isNumber_convert (held : List Held) (tokens : List Token) :
    (convert held tokens).filter Token.isNumber = tokens.filter Token.isNumber := by
  induction tokens generalizing held with
  | nil => exact filter_isNumber_operators held
  | cons token rest ih =>
    rw [convert, List.filter_append, ih]
    cases token with
    | number text => rfl
    | operator op => rw [released, filter_isNumber_operators, List.nil_append]; rfl
    | opening => rfl
    | closing => rw [released, filter_isNumber_operators, List.nil_append]; rfl

/-- The operators come out as often as they went in; this is what remains of
`ofTokens_perm` when the numbers are left out. -/
theorem filter_isOperator_perm (tokens : List Token) :
    ((ofTokens tokens).filter Token.isOperator).Perm (tokens.filter Token.isOperator) := by
  have rearranged := (ofTokens_perm tokens).filter Token.isOperator
  rw [List.filter_filter] at rearranged
  refine rearranged.trans (List.Perm.of_eq (List.filter_congr ?_))
  intro token _
  cases token <;> rfl

/-! ## Reasons to stop -/

/-- Why a run stops at a token, with this many values on the stack. The error
that is reported is determined by the token and that number. -/
inductive Stops (available : Nat) : Token → EvalError → Prop where
  /-- A number is not plain. -/
  | number {text : List Char} :
      ¬Decimal.IsPlain text → Stops available (.number text) (.malformedNumber text)
  /-- An operator finds fewer than two values. -/
  | operator {op : Operator} :
      available ≤ 1 → Stops available (.operator op) (.missingOperands op available)
  /-- Parentheses have no place in postfix order. -/
  | opening : Stops available .opening (.unexpectedToken .opening)
  | closing : Stops available .closing (.unexpectedToken .closing)

/-- A token is refused for these reasons and no others. Both directions go
through the kinds of tokens, and an operator through stacks of none, one and
more values. -/
theorem step_eq_error_iff (stack : List Float) (token : Token) (error : EvalError) :
    step stack token = .error error ↔ Stops stack.length token error := by
  constructor
  · intro stopped
    cases token with
    | number text =>
      cases read : Decimal.ofChars? text with
      | none =>
        obtain rfl : EvalError.malformedNumber text = error := by
          simpa [step, numberValue, read, Except.map] using stopped
        exact .number ((Decimal.ofChars?_eq_none_iff text).mp read)
      | some decimal => simp [step, numberValue, read, Except.map] at stopped
    | operator op =>
      cases stack with
      | nil =>
        cases stopped
        exact .operator (Nat.zero_le 1)
      | cons right others =>
        cases others with
        | nil =>
          cases stopped
          exact .operator (Nat.le_refl 1)
        | cons left below => cases stopped
    | opening =>
      cases stopped
      exact .opening
    | closing =>
      cases stopped
      exact .closing
  · intro stops
    cases stops with
    | number refused =>
      have unread := (Decimal.ofChars?_eq_none_iff _).mpr refused
      simp [step, numberValue, unread, Except.map]
    | operator few =>
      cases stack with
      | nil => rfl
      | cons right others =>
        cases others with
        | nil => rfl
        | cons left below => simp at few
    | opening => rfl
    | closing => rfl

/-- A kept token that cannot be processed is a number that is not plain, or an
operator that finds fewer than two values, since parentheses are not kept. -/
theorem step_error {stack : List Float} {token : Token} {error : EvalError}
    (kept : isKept token = true) (stopped : step stack token = .error error) :
    (∃ text, error = .malformedNumber text) ∨
      ∃ op available, available ≤ 1 ∧ error = .missingOperands op available := by
  cases (step_eq_error_iff stack token error).mp stopped with
  | number refused => exact .inl ⟨_, rfl⟩
  | operator few => exact .inr ⟨_, _, few, rfl⟩
  | opening => cases kept
  | closing => cases kept

/-- A run over kept tokens stops for no other reason: it stops at one of them,
and there `step_error` applies. -/
theorem run_error {stack : List Float} {tokens : List Token} {error : EvalError}
    (kept : ∀ token ∈ tokens, isKept token = true) (stopped : run stack tokens = .error error) :
    (∃ text, error = .malformedNumber text) ∨
      ∃ op available, available ≤ 1 ∧ error = .missingOperands op available := by
  induction tokens generalizing stack with
  | nil => cases stopped
  | cons token rest ih =>
    rw [run] at stopped
    split at stopped
    · exact ih (fun other member => kept other (List.mem_cons_of_mem _ member)) stopped
    · rename_i reason here
      cases stopped
      exact step_error (kept token List.mem_cons_self) here

/-- Putting tokens in postfix order drops the parentheses and nothing else: the
numbers come out in their order and the operators in some order, each of them
after all numbers that stood before it. So an evaluation has a value, or stops
at a number that is not plain or at an operator that finds one value or none.

Proof: the order of the numbers and the count of the operators are inductions
over the conversion. "After" is said with positions: `exists_traced` follows
every token from the input to what is held and from there to the output. The
errors are those of single steps over kept tokens, of which no step can see a
parenthesis. -/
theorem ofTokens_conserves :
    (∀ tokens : List Token,
      (∀ token ∈ ofTokens tokens, token ≠ .opening ∧ token ≠ .closing) ∧
      (ofTokens tokens).filter Token.isNumber = tokens.filter Token.isNumber ∧
      ((ofTokens tokens).filter Token.isOperator).Perm (tokens.filter Token.isOperator) ∧
      ∃ origins, Traced tokens (ofTokens tokens) origins) ∧
    ∀ expression : List Char,
      (∃ value, evaluate expression = .ok value) ∨
      (∃ text, evaluate expression = .error (.malformedNumber text)) ∨
      ∃ op available, available ≤ 1 ∧
        evaluate expression = .error (.missingOperands op available) := by
  have kept (tokens : List Token) : ∀ token ∈ ofTokens tokens, isKept token = true :=
    fun token member => ((mem_ofTokens_iff tokens token).mp member).2
  constructor
  · intro tokens
    refine ⟨?_, filter_isNumber_convert [] tokens, filter_isOperator_perm tokens,
      exists_traced tokens⟩
    intro token member
    have kind := kept tokens token member
    constructor
    · rintro rfl
      cases kind
    · rintro rfl
      cases kind
  · intro expression
    rw [evaluate, eval]
    cases outcome : run [] (ofTokens (Token.scan (Token.normalize expression))) with
    | ok stack => exact .inl ⟨stack.headD 0, rfl⟩
    | error error =>
      rcases run_error (kept _) outcome with ⟨text, rfl⟩ | ⟨op, available, few, rfl⟩
      · exact .inr (.inl ⟨text, rfl⟩)
      · exact .inr (.inr ⟨op, available, few, rfl⟩)

end Reckon.Postfix
