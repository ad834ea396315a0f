/-!
# Decimal digits

The characters of the Unicode category of decimal digits come in runs of ten,
from the digit zero to the digit nine of one script. The table lists the zeros;
a digit's value is its distance from the zero of its run.
-/

namespace Reckon.Text

/-- The code points of the digits zero. -/
def digitZeros : List Nat :=
  [0x0030, 0x0660, 0x06F0, 0x07C0, 0x0966, 0x09E6, 0x0A66, 0x0AE6, 0x0B66, 0x0BE6,
    0x0C66, 0x0CE6, 0x0D66, 0x0DE6, 0x0E50, 0x0ED0, 0x0F20, 0x1040, 0x1090, 0x17E0,
    0x1810, 0x1946, 0x19D0, 0x1A80, 0x1A90, 0x1B50, 0x1BB0, 0x1C40, 0x1C50, 0xA620,
    0xA8D0, 0xA900, 0xA9D0, 0xA9F0, 0xAA50, 0xABF0, 0xFF10, 0x104A0, 0x10D30, 0x11066,
    0x110F0, 0x11136, 0x111D0, 0x112F0, 0x11450, 0x114D0, 0x11650, 0x116C0, 0x11730, 0x118E0,
    0x11950, 0x11C50, 0x11D50, 0x11DA0, 0x16A60, 0x16AC0, 0x16B50, 0x1D7CE, 0x1D7D8, 0x1D7E2,
    0x1D7EC, 0x1D7F6, 0x1E140, 0x1E2F0, 0x1E950, 0x1FBF0]

/-- The value of a decimal digit of any script; other characters have none. -/
def digitValue? (c : Char) : Option Nat :=
  (digitZeros.find? fun base => base ≤ c.toNat && c.toNat < base + 10).map (c.toNat - ·)

/-- The decimal digits of any script. -/
def isDigit (c : Char) : Bool :=
  (digitValue? c).isSome

/-- The runs of ten digits lie apart. -/
theorem digitZeros_apart : digitZeros.Pairwise fun base next => base + 10 ≤ next := by
  decide +kernel

/-- A character has a value exactly if it lies in the run of a zero of the
table, and the value is its distance from that zero. No other run is found
first, because the runs lie apart. -/
theorem digitValue?_eq_some_iff (c : Char) (value : Nat) :
    digitValue? c = some value ↔ value < 10 ∧ ∃ base ∈ digitZeros, c.toNat = base + value := by
  simp only [digitValue?, Option.map_eq_some_iff, List.find?_eq_some_iff_getElem, Bool.and_eq_true,
    decide_eq_true_eq]
  constructor
  · rintro ⟨base, ⟨⟨start, below⟩, index, bound, rfl, _⟩, rfl⟩
    exact ⟨by omega, digitZeros[index], List.getElem_mem bound, by omega⟩
  · rintro ⟨small, base, member, place⟩
    obtain ⟨index, bound, rfl⟩ := List.mem_iff_getElem.mp member
    refine ⟨digitZeros[index], ⟨⟨by omega, by omega⟩, index, bound, rfl, ?_⟩, by omega⟩
    intro before earlier
    have apart := List.pairwise_iff_getElem.mp digitZeros_apart before index
      (Nat.lt_trans earlier bound) bound earlier
    have beyond : ¬c.toNat < digitZeros[before] + 10 := by omega
    simp [beyond]

example : "0123456789".toList.map digitValue? = (List.range 10).map some := by decide +kernel

end Reckon.Text
