import Mathlib.Data.List.DropRight
import Reckon.Text.Blank

/-!
# Runs and fields

A run of characters of one class, with something else behind it, is taken or
dropped as a whole (`takeWhile_run`).

Fields keep their shape: trimming what has been trimmed changes nothing, and
neither does trimming a text without padding. So the lines of an expression file
reach the service as they were loaded: it trims what it receives once more, and
finds nothing to remove.
-/

namespace Reckon.Text

variable {padding : Char → Bool} {text : List Char}

theorem trim_of_notPadding (none : ∀ c ∈ text, padding c = false) : trim padding text = text := by
  have kept (rest : List Char) (none : ∀ c ∈ rest, padding c = false) :
      rest.dropWhile padding = rest := by
    cases rest with
    | nil => rfl
    | cons c later => exact List.dropWhile_cons_of_neg (by simp [none c List.mem_cons_self])
  rw [trim, kept text none, kept text.reverse fun c member => none c (List.mem_reverse.mp member),
    List.reverse_reverse]

/-- A run of characters of a class is taken as a whole where something else
follows it, or nothing at all. -/
theorem takeWhile_run {kind : Char → Bool} {run rest : List Char}
    (inside : ∀ c ∈ run, kind c = true) (ends : ∀ c ∈ rest.head?, kind c = false) :
    (run ++ rest).takeWhile kind = run ∧ (run ++ rest).dropWhile kind = rest := by
  rw [List.takeWhile_append_of_pos inside, List.dropWhile_append_of_pos inside]
  cases rest with
  | nil => simp
  | cons c later => simp [ends c rfl]

/-- What begins a text without leading padding has no leading padding either. -/
theorem dropWhile_of_prefix {kept : List Char} (starts : text.dropWhile padding = text)
    (begins : kept <+: text) : kept.dropWhile padding = kept := by
  cases kept with
  | nil => rfl
  | cons c rest =>
    obtain ⟨later, rfl⟩ := begins
    have first := List.dropWhile_eq_self_iff.mp starts (Nat.succ_pos _)
    exact List.dropWhile_cons_of_neg first

/-- A trimmed text has no leading padding: it is a prefix of a text that has
none. -/
theorem dropWhile_trim : (trim padding text).dropWhile padding = trim padding text :=
  dropWhile_of_prefix (List.dropWhile_idempotent padding text)
    (List.rdropWhile_prefix padding (text.dropWhile padding))

/-- A trimmed text has no trailing padding. -/
theorem dropWhile_reverse_trim :
    (trim padding text).reverse.dropWhile padding = (trim padding text).reverse := by
  rw [trim, List.reverse_reverse]
  exact List.dropWhile_idempotent padding _

/-- Trimming twice is trimming once, because nothing is left to trim at either
end. -/
theorem trim_trim : trim padding (trim padding text) = trim padding text := by
  conv_lhs => rw [trim, dropWhile_trim, dropWhile_reverse_trim]
  exact List.reverse_reverse _

/-- A text without leading padding begins with another character, if it begins
with any. -/
theorem head?_of_dropWhile_eq (starts : text.dropWhile padding = text) :
    ∀ c ∈ text.head?, padding c = false := by
  intro c first
  have none := List.head?_dropWhile_not padding text
  rw [starts, first] at none
  simpa using none

theorem mem_of_mem_trim {c : Char} (member : c ∈ trim padding text) : c ∈ text := by
  have kept := (List.dropWhile_suffix padding).subset (List.mem_reverse.mp member)
  exact (List.dropWhile_suffix padding).subset (List.mem_reverse.mp kept)

/-- Padding behind a text is trimmed away, and nothing else if the text has none
around it. -/
theorem trim_append_padding {pad : List Char} (nonempty : text ≠ [])
    (leading : ∀ c ∈ text.head?, padding c = false)
    (trailing : ∀ c ∈ text.getLast?, padding c = false) (pads : ∀ c ∈ pad, padding c = true) :
    trim padding (text ++ pad) = text := by
  have starts : (text ++ pad).dropWhile padding = text ++ pad := by
    cases text with
    | nil => exact absurd rfl nonempty
    | cons c rest => exact List.dropWhile_cons_of_neg (by simp [leading c rfl])
  have reversed : ∀ c ∈ pad.reverse, padding c = true := fun c member =>
    pads c (List.mem_reverse.mp member)
  rw [← List.head?_reverse] at trailing
  rw [trim, starts, List.reverse_append, (takeWhile_run reversed trailing).2, List.reverse_reverse]

/-- A field has no surrounding blanks. What a client has loaded is therefore not
changed when the service strips it again. -/
theorem strip_of_mem_fields {field : List Char} (member : field ∈ fields text) :
    strip field = field := by
  obtain ⟨line, _, kept⟩ := List.mem_filterMap.mp member
  obtain ⟨_, same⟩ := Option.ite_none_left_eq_some.mp kept
  cases same
  exact trim_trim

end Reckon.Text
