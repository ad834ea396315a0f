import Reckon.Evaluation
import Reckon.Text.Blank

/-!
# What scanning keeps

Scanning cuts a text into tokens and drops what belongs to none. The characters
that it keeps are the *significant* ones: number characters, the symbols of
operators, and parentheses. Written one behind another, the tokens of a text
spell exactly its significant characters (`flatMap_text_scan`), and they depend
on nothing else in it (`scan_filter`).

Blanks are not significant, and neither do they become so when glyphs are
replaced. So an expression may be trimmed before it is evaluated
(`evaluate_strip`).
-/

namespace Reckon

namespace Token

/-- The characters of which tokens are made: those of numbers, and those that
are a token by themselves. -/
def isSignificant (c : Char) : Bool :=
  isNumeric c || (ofMark? c).isSome

theorem symbol_of_ofSymbol? {c : Char} {op : Operator} (found : Operator.ofSymbol? c = some op) :
    op.symbol = c := by
  unfold Operator.ofSymbol? at found
  split at found <;> cases found <;> rfl

/-- The characters that are tokens by themselves. -/
def marks : List Char := ['(', ')', '+', '-', '*', '/']

/-- The token of a single character is written as this character, which is one
of the six marks. -/
theorem of_ofMark? {c : Char} {mark : Token} (found : ofMark? c = some mark) :
    mark.text = [c] ∧ c ∈ marks := by
  unfold ofMark? at found
  split at found
  · rename_i opens
    cases found
    rw [opens]
    decide
  · split at found
    · rename_i closes
      cases found
      rw [closes]
      decide
    · obtain ⟨op, known, rfl⟩ := Option.map_eq_some_iff.mp found
      rw [← symbol_of_ofSymbol? known]
      cases op <;> decide

/-- The token of a single character is no number, and neither does the character
belong to one. So a mark always ends the number before it. -/
theorem not_number_of_ofMark? {c : Char} {mark : Token} (found : ofMark? c = some mark) :
    isNumeric c = false ∧ ∀ text, mark ≠ .number text := by
  have apart : (marks.all fun c => !isNumeric c) = true := by decide
  refine ⟨by simpa using List.all_eq_true.mp apart c (of_ofMark? found).2, ?_⟩
  rintro text rfl
  unfold ofMark? at found
  split at found
  · cases found
  · split at found
    · cases found
    · obtain ⟨op, _, same⟩ := Option.map_eq_some_iff.mp found
      cases same

/-- A number character in front of tokens is written in front of them, no matter
whether it joins a number or begins one. -/
theorem flatMap_text_consNumeric (c : Char) (tokens : List Token) :
    (consNumeric c tokens).flatMap text = c :: tokens.flatMap text := by
  unfold consNumeric
  split <;> simp [text]

/-- The tokens of a text spell its significant characters, in the same order and
with nothing between them. -/
theorem flatMap_text_scan (characters : List Char) :
    (scan characters).flatMap text = characters.filter isSignificant := by
  induction characters with
  | nil => rfl
  | cons c rest ih =>
    rw [scan]
    split
    · rename_i numeric
      rw [flatMap_text_consNumeric, ih, List.filter_cons_of_pos (by simp [isSignificant, numeric])]
    · rename_i other
      split
      · rename_i mark found
        rw [List.flatMap_cons, (of_ofMark? found).1, ih,
          List.filter_cons_of_pos (by simp [isSignificant, found])]
        exact List.singleton_append
      · rename_i unmarked
        rw [ih, List.filter_cons_of_neg (by simp [isSignificant, other, unmarked])]

/-- A number that begins in front of a token of another kind ends before it. -/
theorem consNumeric_append (c : Char) (before after : List Token) {mark : Token}
    (other : ∀ text, mark ≠ .number text) :
    consNumeric c (before ++ mark :: after) = consNumeric c before ++ mark :: after := by
  cases before with
  | nil =>
    cases mark with
    | number text => exact absurd rfl (other text)
    | operator op => rfl
    | opening => rfl
    | closing => rfl
  | cons first rest => cases first <;> rfl

/-- A character that is a token by itself parts the tokens before it from those
behind it. In front of such a character and behind it, a text may be scanned
separately. -/
theorem scan_append_mark {c : Char} {mark : Token} (found : ofMark? c = some mark)
    (before after : List Char) :
    scan (before ++ c :: after) = scan before ++ mark :: scan after := by
  obtain ⟨apart, other⟩ := not_number_of_ofMark? found
  induction before with
  | nil => simp [scan, apart, found]
  | cons first rest ih =>
    rw [List.cons_append, scan, scan, ih]
    split
    · exact consNumeric_append first (scan rest) (scan after) other
    · split <;> rfl

/-- Only significant characters matter to scanning. One that is not is skipped
even within a number, whose two parts are then read as one. -/
theorem scan_filter (characters : List Char) :
    scan (characters.filter isSignificant) = scan characters := by
  induction characters with
  | nil => rfl
  | cons c rest ih =>
    cases kept : isSignificant c with
    | true => rw [List.filter_cons_of_pos kept, scan, scan, ih]
    | false =>
      obtain ⟨other, unmarked⟩ := Bool.or_eq_false_iff.mp kept
      rw [Option.isSome_eq_false_iff, Option.isNone_iff_eq_none] at unmarked
      rw [List.filter_cons_of_neg (by simp [kept]), ih, scan]
      simp only [other, Bool.false_eq_true, if_false, unmarked]

theorem isSignificant_iff (c : Char) :
    isSignificant c = true ↔ c.isDigit = true ∨ c = '.' ∨ c ∈ marks := by
  have marked : (ofMark? c).isSome = true ↔ c ∈ marks := by
    constructor
    · intro known
      obtain ⟨mark, found⟩ := Option.isSome_iff_exists.mp known
      exact (of_ofMark? found).2
    · have all : (marks.all fun c => (ofMark? c).isSome) = true := by decide
      exact List.all_eq_true.mp all c
  simp only [isSignificant, isNumeric, Bool.or_eq_true, beq_iff_eq, marked, or_assoc]

end Token

namespace Text

/-- Trimming removes nothing that a filter keeps, if the filter keeps no
padding. -/
theorem filter_trim {padding kept : Char → Bool} (apart : ∀ c, padding c = true → kept c = false)
    (text : List Char) : (trim padding text).filter kept = text.filter kept := by
  have leading (rest : List Char) : (rest.dropWhile padding).filter kept = rest.filter kept := by
    induction rest with
    | nil => rfl
    | cons c later ih =>
      by_cases padded : padding c = true
      · rw [List.dropWhile_cons_of_pos padded, ih,
          List.filter_cons_of_neg (by simp [apart c padded])]
      · rw [List.dropWhile_cons_of_neg padded]
  rw [trim, List.filter_reverse, leading, List.filter_reverse, List.reverse_reverse, leading]

end Text

/-- Evaluation depends only on the significant characters that are left when
glyphs are replaced, because scanning does. -/
theorem evaluate_congr {first second : List Char}
    (same : (Token.normalize first).filter Token.isSignificant =
      (Token.normalize second).filter Token.isSignificant) : evaluate first = evaluate second := by
  unfold evaluate
  rw [← Token.scan_filter (Token.normalize first), same, Token.scan_filter]

/-- No blank stands for a significant character: the glyphs that are replaced
are no blanks, and the blanks are spread over ranges without any character of
the alphabet. -/
theorem not_isSignificant_of_isBlank (c : Char) (blank : Text.isBlank c = true) :
    Token.isSignificant (Token.plainSymbol c) = false := by
  have usual : Token.plainSymbol c = c := by
    unfold Token.plainSymbol
    rw [if_neg (by rintro rfl; exact absurd blank (by decide)),
      if_neg (by rintro rfl; exact absurd blank (by decide))]
  rw [usual, ← Bool.not_eq_true, Token.isSignificant_iff]
  rintro (digit | rfl | mark)
  · obtain ⟨least, most⟩ := Bool.and_eq_true_iff.mp digit
    have low : 48 ≤ c.toNat := of_decide_eq_true least
    have high : c.toNat ≤ 57 := of_decide_eq_true most
    simp only [Text.isBlank, Bool.or_eq_true, Bool.and_eq_true, decide_eq_true_eq,
      beq_iff_eq] at blank
    omega
  · exact absurd blank (by decide)
  · have unblank : (Token.marks.all fun c => !Text.isBlank c) = true := by decide
    exact absurd blank (by simpa using List.all_eq_true.mp unblank c mark)

/-- Surrounding blanks make no difference to the outcome of an evaluation, so
the client and the server may trim a request as they like. -/
theorem evaluate_strip (expression : List Char) :
    evaluate (Text.strip expression) = evaluate expression := by
  apply evaluate_congr
  rw [Token.normalize, Token.normalize, List.filter_map, List.filter_map]
  exact congrArg _ (Text.filter_trim not_isSignificant_of_isBlank expression)

end Reckon
