/-!
# Weights

How much work is left is measured by weights: every item of a list has one, and
what is left is their sum. A step that changes one item changes the sum by as
much as the weight of that item, and not at all if the item keeps its weight.
-/

namespace Reckon.Weight

/-- Weights are added up from the numeral zero, so that their sum means the same
whatever else is known about the algebra of numbers. -/
scoped instance (priority := 1100) numeralZero : Zero Nat := Zero.ofOfNat0

variable {α β : Type}

/-- Changing one item of a list changes the sum of the weights by the difference
in that item. The list is cut at the item, and the parts before and behind it
count the same on both sides. -/
theorem sum_map_modify (weight : α → Nat) (items : List α) (index : Nat) (change : α → α) (item : α)
    (found : items[index]? = some item) :
    ((items.modify index change).map weight).sum + weight item =
      (items.map weight).sum + weight (change item) := by
  obtain ⟨bound, rfl⟩ := List.getElem?_eq_some_iff.mp found
  obtain ⟨before, other, after, split, place, changed⟩ := List.exists_of_modify change bound
  have same : items[index] = other := by simp [split, ← place]
  rw [same, changed, split]
  simp only [List.map_append, List.map_cons, List.sum_append, List.sum_cons]
  omega

/-- A change of one item that keeps what is read off an item keeps what is read
off the list. -/
theorem map_modify_of_same (read : α → β) (items : List α) (index : Nat) (change : α → α)
    (same : ∀ item, read (change item) = read item) :
    (items.modify index change).map read = items.map read := by
  induction items generalizing index with
  | nil => rw [List.modify_nil]
  | cons first rest ih => cases index <;> simp [same, ih]

end Reckon.Weight
