import Mathlib.Tactic.IntervalCases
import Reckon.Proofs.Acceptance
import Reckon.Proofs.Scanning

/-!
# Scanning undoes spelling

A token list spells a text: the texts of its tokens, one behind another. Two
lists may spell the same text, because a number may be cut in two. Scanning
never does that, and it never makes a number of nothing: what it gives is
*canonical*. No two canonical lists spell the same text, and scanning finds the
one that does (`Canonical.scan_flatMap_text`).

So scanning and spelling are inverse to each other between canonical lists and
texts over the alphabet of expressions. Of any other text, scanning gives the
tokens that spell what is left of it when all other characters are removed.
-/

namespace Reckon

namespace Token

/-- The characters of which expressions are made. -/
def alphabet : List Char :=
  "0123456789.+-*/()".toList

/-- The significant characters are those of the alphabet. Digits are a range of
character codes on one side and ten characters on the other. -/
theorem isSignificant_iff_mem_alphabet (c : Char) : isSignificant c = true ↔ c ∈ alphabet := by
  constructor
  · intro significant
    rcases (isSignificant_iff c).mp significant with digit | rfl | mark
    · obtain ⟨least, most⟩ := Bool.and_eq_true_iff.mp digit
      have low : 48 ≤ c.toNat := of_decide_eq_true least
      have high : c.toNat ≤ 57 := of_decide_eq_true most
      have same := Char.ofNat_toNat c
      generalize c.toNat = code at low high same
      subst same
      interval_cases code <;> decide
    · decide
    · have among : (marks.all fun c => decide (c ∈ alphabet)) = true := by decide
      exact of_decide_eq_true (List.all_eq_true.mp among c mark)
  · have all : alphabet.all isSignificant = true := by decide
    exact List.all_eq_true.mp all c

theorem filter_alphabet (characters : List Char) :
    characters.filter (· ∈ alphabet) = characters.filter isSignificant :=
  List.filter_congr fun c _ =>
    Bool.eq_iff_iff.mpr (decide_eq_true_iff.trans (isSignificant_iff_mem_alphabet c).symm)

/-- Number characters, at least one of them. Such a text need not be a number
that can be read: `1.2.3` is a numeral. -/
def IsNumeral (text : List Char) : Prop :=
  text ≠ [] ∧ ∀ c ∈ text, isNumeric c = true

/-- Every number is a numeral, and no two numbers are neighbours. -/
structure Canonical (tokens : List Token) : Prop where
  numerals : ∀ text, .number text ∈ tokens → IsNumeral text
  apart : tokens.IsChain fun first second => ¬(first.isNumber = true ∧ second.isNumber = true)

variable {tokens rest : List Token} {text : List Char} {c : Char}

theorem Canonical.canonical_tail {token : Token} (canonical : Canonical (token :: tokens)) :
    Canonical tokens :=
  ⟨fun text member => canonical.numerals text (List.mem_cons_of_mem token member),
    canonical.apart.tail⟩

/-- Behind a number, a canonical list does not begin with another one. -/
theorem Canonical.not_number_behind_number (canonical : Canonical (.number text :: rest)) :
    ∀ other later, rest ≠ .number other :: later := by
  rintro other later rfl
  exact (List.isChain_cons_cons.mp canonical.apart).1 ⟨rfl, rfl⟩

/-- A token that is no number may stand in front of any canonical list, since
only numbers must not be neighbours. -/
theorem Canonical.cons_mark (canonical : Canonical rest) {mark : Token}
    (other : ∀ text, mark ≠ .number text) : Canonical (mark :: rest) := by
  have unnumbered : ¬mark.isNumber = true := by
    cases mark with
    | number text => exact absurd rfl (other text)
    | operator op => exact Bool.false_ne_true
    | opening => exact Bool.false_ne_true
    | closing => exact Bool.false_ne_true
  refine ⟨?_, canonical.apart.cons fun second _ both => unnumbered both.1⟩
  intro text member
  exact canonical.numerals text (List.mem_of_ne_of_mem (other text).symm member)

/-- A number may stand in front of a canonical list that does not begin with
one. -/
theorem Canonical.cons_number (canonical : Canonical rest) (numeral : IsNumeral text)
    (stop : ∀ other later, rest ≠ .number other :: later) : Canonical (.number text :: rest) := by
  refine ⟨?_, canonical.apart.cons ?_⟩
  · intro other member
    rcases List.mem_cons.mp member with same | later
    · cases same
      exact numeral
    · exact canonical.numerals other later
  · intro second first both
    obtain ⟨later, rfl⟩ := List.head?_eq_some_iff.mp first
    cases second with
    | number other => exact stop other later rfl
    | operator op => cases both.2
    | opening => cases both.2
    | closing => cases both.2

/-! ## Scanning gives canonical lists -/

/-- A number character joins the number in front or begins one. Either way no
number comes to stand beside another. -/
theorem Canonical.canonical_consNumeric (canonical : Canonical tokens)
    (numeric : isNumeric c = true) :
    Canonical (consNumeric c tokens) := by
  have begins (stop : ∀ other later, tokens ≠ .number other :: later) :
      Canonical (.number [c] :: tokens) :=
    canonical.cons_number ⟨List.cons_ne_nil c [], by simpa using numeric⟩ stop
  cases tokens with
  | nil => exact begins (by simp)
  | cons first rest =>
    cases first with
    | number text =>
      obtain ⟨_, others⟩ := canonical.numerals text List.mem_cons_self
      have joined : IsNumeral (c :: text) :=
        ⟨List.cons_ne_nil c text, List.forall_mem_cons.mpr ⟨numeric, others⟩⟩
      exact canonical.canonical_tail.cons_number joined canonical.not_number_behind_number
    | operator op => exact begins (by simp)
    | opening => exact begins (by simp)
    | closing => exact begins (by simp)

/-- The tokens of a text are canonical, because scanning puts every number
character in front of the number that it belongs to. -/
theorem canonical_scan (characters : List Char) : Canonical (scan characters) := by
  induction characters with
  | nil => exact ⟨by simp [scan], .nil⟩
  | cons c rest ih =>
    rw [scan]
    split
    · rename_i numeric
      exact ih.canonical_consNumeric numeric
    · split
      · rename_i mark found
        exact ih.cons_mark (not_number_of_ofMark? found).2
      · exact ih

/-! ## Scanning undoes spelling -/

/-- A numeral is found again in front of tokens that do not begin with a number.
By induction on the numeral, its characters gather one by one in front of what
is behind it. -/
theorem scan_numeral_append {behind : List Char} (numeral : IsNumeral text)
    (stop : ∀ other later, scan behind ≠ .number other :: later) :
    scan (text ++ behind) = .number text :: scan behind := by
  induction text with
  | nil => exact absurd rfl numeral.1
  | cons first others ih =>
    obtain ⟨begins, further⟩ := List.forall_mem_cons.mp numeral.2
    rw [List.cons_append, scan, if_pos begins]
    by_cases last : others = []
    · subst last
      rw [List.nil_append]
      generalize scan behind = found at stop ⊢
      unfold consNumeric
      split
      · exact absurd rfl (stop _ _)
      · rfl
    · rw [ih ⟨last, further⟩]
      rfl

theorem not_number {mark : Token} (other : mark.isNumber = false) :
    ∀ text, mark ≠ .number text := by
  rintro text rfl
  cases other

/-- A token that is no number is written as a single character, which is scanned
as this token. -/
theorem exists_ofMark? {mark : Token} (other : ∀ text, mark ≠ .number text) :
    ∃ c, mark.text = [c] ∧ ofMark? c = some mark := by
  cases mark with
  | number text => exact absurd rfl (other text)
  | operator op => exact ⟨op.symbol, rfl, by cases op <;> rfl⟩
  | opening => exact ⟨'(', rfl, rfl⟩
  | closing => exact ⟨')', rfl, rfl⟩

/-- A canonical list is found again in the text that it spells.

The induction is on the list. A number needs to know that its neighbour is none,
for otherwise the two would be scanned as one; the other tokens are found by
their character, whatever follows. -/
theorem Canonical.scan_flatMap_text (canonical : Canonical tokens) :
    scan (tokens.flatMap Token.text) = tokens := by
  have markFirst {mark : Token} {rest : List Token} (other : ∀ text, mark ≠ .number text)
      (ih : scan (rest.flatMap Token.text) = rest) :
      scan ((mark :: rest).flatMap Token.text) = mark :: rest := by
    obtain ⟨c, spelled, found⟩ := exists_ofMark? other
    rw [List.flatMap_cons, spelled]
    exact (scan_append_mark found [] (rest.flatMap Token.text)).trans (congrArg (mark :: ·) ih)
  induction tokens with
  | nil => rfl
  | cons first rest ih =>
    have later := ih canonical.canonical_tail
    cases first with
    | number text =>
      have numeral := canonical.numerals text List.mem_cons_self
      rw [List.flatMap_cons, Token.text,
        scan_numeral_append numeral (later.symm ▸ canonical.not_number_behind_number), later]
    | operator op => exact markFirst (not_number rfl) later
    | opening => exact markFirst (not_number rfl) later
    | closing => exact markFirst (not_number rfl) later

/-- Scanning undoes spelling. The tokens of a text are canonical and spell what
is left of it when all characters outside the alphabet are removed. A canonical
list is found again in what it spells.

So the tokens of a text are the only canonical list that spells what is left of
it. Expressions of which the same is left, once plain symbols are in the place
of glyphs, have the same outcome.

Proof: spelling after scanning is `flatMap_text_scan`, and scanning after
spelling is `Canonical.scan_flatMap_text`. A canonical list that spells what is
left of a text is what scanning finds there, and scanning finds the same in the
text itself (`scan_filter`). -/
theorem scan_inverts_spelling :
    (∀ characters, Canonical (scan characters) ∧
      (scan characters).flatMap Token.text = characters.filter (· ∈ alphabet)) ∧
    (∀ tokens, Canonical tokens → scan (tokens.flatMap Token.text) = tokens) ∧
    (∀ characters tokens, Canonical tokens →
      tokens.flatMap Token.text = characters.filter (· ∈ alphabet) → tokens = scan characters) ∧
    ∀ first second,
      (normalize first).filter (· ∈ alphabet) = (normalize second).filter (· ∈ alphabet) →
        evaluate first = evaluate second := by
  refine ⟨?_, ?_, ?_, ?_⟩
  · intro characters
    exact ⟨canonical_scan characters, by rw [flatMap_text_scan, filter_alphabet]⟩
  · intro tokens canonical
    exact canonical.scan_flatMap_text
  · intro characters tokens canonical spelled
    calc tokens = scan (tokens.flatMap Token.text) := canonical.scan_flatMap_text.symm
      _ = scan (characters.filter isSignificant) := by rw [spelled, filter_alphabet]
      _ = scan characters := scan_filter characters
  · intro first second same
    rw [filter_alphabet, filter_alphabet] at same
    exact evaluate_congr same

/-- The tokens of `12+(.5)`. -/
def spelledSum : List Token :=
  [.number ['1', '2'], .operator .add, .opening, .number ['.', '5'], .closing]

/-- Blanks, a letter and a full-width digit make no difference to them, not even
within a number. -/
theorem spelledSum_is_scanned :
    Canonical spelledSum ∧ scan "1 2 + ( x.5９ )".toList = spelledSum := by
  obtain ⟨sound, _, unique, _⟩ := scan_inverts_spelling
  have found : scan "12+(.5)".toList = spelledSum := by decide
  have canonical : Canonical spelledSum := found ▸ (sound _).1
  exact ⟨canonical, (unique _ _ canonical (by decide)).symm⟩

end Token

end Reckon
