import Reckon.Proofs.Text.Decoding

/-!
# A text that is cut

Of the bytes of a text, only so many are read. If a character ends there, or the
text does, what is read is the longest prefix of the text that fits
(`take_encode_of_cutBetween`). Otherwise some character has its first bytes read
and its last ones not, and these are refused: the bytes so far could begin a
character, and more would have been needed (`decode_take_encode`). So a text
whose bytes are cut is never read as another one.
-/

namespace Reckon.Text.Utf8

variable {text before after kept : List Char} {limit count : Nat}

/-! ## Bytes of texts -/

theorem encode_append (before after : List Char) :
    encode (before ++ after) = encode before ++ encode after :=
  List.flatMap_append

/-- The first byte of a character announces the others: it is a lead that owes
as many bytes as follow. -/
theorem exists_lead (c : Char) :
    ∃ first rest lead, encodeChar c = first :: rest ∧ Lead.ofByte? first = some lead ∧
      lead.owed = rest.length := by
  have valid : c.toNat < 0xD800 ∨ 0xDFFF < c.toNat ∧ c.toNat < 0x110000 := c.valid
  rw [← Char.ofNat_toNat c]
  generalize c.toNat = code at valid
  by_cases one : code < 0x80
  · exact ⟨_, _, _, encodeChar_one one, ofByte?_one one, rfl⟩
  by_cases two : code < 0x800
  · exact ⟨_, _, _, encodeChar_two (by omega) two, ofByte?_two (by omega) (by omega), rfl⟩
  by_cases three : code < 0x10000
  · exact ⟨_, _, _, encodeChar_three (by omega) three (by omega), ofByte?_three (by omega), rfl⟩
  · exact ⟨_, _, _, encodeChar_four (by omega) (by omega), ofByte?_four (by omega), rfl⟩

/-- A character has at least one byte and at most four. -/
theorem length_encodeChar (c : Char) : 0 < (encodeChar c).length ∧ (encodeChar c).length ≤ 4 := by
  unfold encodeChar
  simp only
  split_ifs <;> simp

theorem eq_nil_of_encode (none : (encode text).length = 0) : text = [] := by
  cases text with
  | nil => rfl
  | cons c rest =>
    have positive := (length_encodeChar c).1
    rw [encode_cons, List.length_append] at none
    omega

/-! ## Where the bytes of a text are cut -/

/-- Nothing is cut, or the cut falls behind the last byte of a character. The
limit is a number of bytes. -/
def CutBetween (limit : Nat) (text : List Char) : Prop :=
  (encode text).length ≤ limit ∨
    ∃ before c after, text = before ++ c :: after ∧ (encode (before ++ [c])).length = limit

/-- Among the prefixes of a text with at most so many bytes, this is the
longest. Every other one that fits is a prefix of it. -/
structure IsLongestFit (limit : Nat) (text kept : List Char) : Prop where
  starts : kept <+: text
  fits : (encode kept).length ≤ limit
  longest : ∀ other, other <+: text → (encode other).length ≤ limit → other <+: kept

/-- A prefix that takes all the bytes there may be is the longest, since any
character more has at least one byte. -/
theorem isLongestFit_of_length (starts : kept <+: text) (full : (encode kept).length = limit) :
    IsLongestFit limit text kept := by
  refine ⟨starts, Nat.le_of_eq full, ?_⟩
  intro other begins fits
  rcases List.prefix_or_prefix_of_prefix begins starts with within | ⟨more, rfl⟩
  · exact within
  · rw [encode_append, List.length_append] at fits
    have none : more = [] := eq_nil_of_encode (by omega)
    simp [none]

/-- A text that is cut between two characters is cut to its longest prefix that
fits. -/
theorem take_encode_of_cutBetween (between : CutBetween limit text) :
    ∃ kept, IsLongestFit limit text kept ∧ (encode text).take limit = encode kept := by
  rcases between with fits | ⟨before, c, after, rfl, full⟩
  · exact ⟨text, ⟨List.prefix_refl text, fits, fun _ begins _ => begins⟩,
      List.take_of_length_le fits⟩
  · have shape : before ++ c :: after = (before ++ [c]) ++ after := by simp
    rw [shape]
    refine ⟨before ++ [c], isLongestFit_of_length (List.prefix_append _ after) full, ?_⟩
    rw [encode_append]
    exact List.take_left' full

/-- A text that does not fit has a character that ends behind the cut, and all
before it ends at the cut or in front of it. It is found by going through the
text with what is left of the limit. -/
theorem exists_cut_char (long : limit < (encode text).length) :
    ∃ before c after, text = before ++ c :: after ∧ (encode before).length ≤ limit ∧
      limit < (encode before).length + (encodeChar c).length := by
  induction text generalizing limit with
  | nil => exact absurd long (Nat.not_lt_zero limit)
  | cons c rest ih =>
    by_cases ends : limit < (encodeChar c).length
    · exact ⟨[], c, rest, rfl, Nat.zero_le limit, by simpa [encode] using ends⟩
    · rw [encode_cons, List.length_append] at long
      obtain ⟨before, next, after, rfl, below, above⟩ :=
        ih (show limit - (encodeChar c).length < (encode rest).length by omega)
      refine ⟨c :: before, next, after, rfl, ?_, ?_⟩ <;>
        rw [encode_cons, List.length_append] <;> omega

/-- A cut that falls neither behind the text nor between two characters falls
inside a character. The character that ends behind the cut has begun before it,
for otherwise the cut would fall between that character and the one in front. -/
theorem exists_split_char (positive : 0 < limit) (inside : ¬CutBetween limit text) :
    ∃ before c after, text = before ++ c :: after ∧ (encode before).length < limit ∧
      limit < (encode before).length + (encodeChar c).length := by
  have long : limit < (encode text).length := Nat.lt_of_not_le fun fits => inside (.inl fits)
  obtain ⟨before, c, after, same, below, above⟩ := exists_cut_char long
  refine ⟨before, c, after, same, Nat.lt_of_le_of_ne below ?_, above⟩
  intro full
  rcases List.eq_nil_or_concat before with rfl | ⟨first, last, rfl⟩
  · exact absurd (show 0 = limit from full) (Nat.ne_of_lt positive)
  · rw [List.concat_eq_append] at full
    exact inside (.inr ⟨first, last, c :: after, by simpa using same, full⟩)

/-! ## Reading what is left of a split character -/

/-- The refusal of the first `length` bytes of a character, where the data
ends. -/
def cutInside (start length : Nat) (c : Char) : Error :=
  { start, length, first := (encodeChar c).headD 0, cause := .unexpectedEnd }

/-- Where the data ends before all bytes have come that a character owes, it is
refused. That the bytes so far are within bounds is known from the whole, which
is accepted. -/
theorem decodeFrom_unfinished {begun : Begun} {front back : List UInt8} {position : Nat}
    (accepted : decodeFrom position (some begun) (front ++ back) = .ok text)
    (fewer : front.length < begun.lead.owed) :
    decodeFrom position (some begun) front =
      .error { start := begun.start, length := begun.length + front.length, first := begun.first,
               cause := .unexpectedEnd } := by
  induction front generalizing position begun with
  | nil => rfl
  | cons byte rest ih =>
    have owing : ¬(begun.lead.push byte).owed = 0 := by
      have less : (begun.lead.push byte).owed = begun.lead.owed - 1 := rfl
      rw [List.length_cons] at fewer
      omega
    simp only [List.cons_append, decodeFrom, owing, if_false] at accepted ⊢
    split at accepted
    · rename_i bounds
      rw [if_pos bounds, ih accepted (Nat.lt_sub_of_add_lt fewer), List.length_cons, Nat.add_assoc,
        Nat.add_comm 1]
    · cases accepted

/-- The first bytes of a character are refused, wherever they stand: the data
ends while some of its bytes are still owed. -/
theorem decodeFrom_take_encodeChar (position : Nat) (c : Char) (positive : 0 < count)
    (fewer : count < (encodeChar c).length) :
    decodeFrom position none ((encodeChar c).take count) = .error (cutInside position count c) := by
  have accepted := decodeFrom_encodeChar position c []
  obtain ⟨first, rest, lead, shape, leads, owed⟩ := exists_lead c
  obtain ⟨more, rfl⟩ := Nat.exists_eq_succ_of_ne_zero (Nat.ne_of_gt positive)
  rw [shape, List.length_cons] at fewer
  have owing : lead.owed ≠ 0 := by omega
  have short : (rest.take more).length < lead.owed := by
    rw [List.length_take]
    omega
  rw [shape, List.append_nil, decodeFrom_first leads owing, ← List.take_append_drop more rest]
    at accepted
  rw [shape, List.take_succ_cons, decodeFrom_first leads owing,
    decodeFrom_unfinished accepted short, List.length_take, Nat.min_eq_left (by omega),
    Nat.add_comm, cutInside, shape]
  rfl

/-- What stands behind a text is read as if nothing stood before it, except that
positions are counted from the start of the whole. -/
theorem decodeFrom_encode_append (position : Nat) (before : List Char) (bytes : List UInt8) :
    decodeFrom position none (encode before ++ bytes) =
      (decodeFrom (position + (encode before).length) none bytes).map (before ++ ·) := by
  induction before generalizing position with
  | nil =>
    rw [show encode [] = [] from rfl, List.nil_append, List.length_nil, Nat.add_zero]
    cases decodeFrom position none bytes <;> rfl
  | cons c rest ih =>
    rw [encode_cons, List.append_assoc, decodeFrom_encodeChar, ih, List.length_append,
      Nat.add_assoc]
    cases decodeFrom (position + ((encodeChar c).length + (encode rest).length)) none bytes <;> rfl

/-- A text that is cut inside a character is refused from the first byte of that
character on. -/
theorem decode_take_encode {c : Char} (below : (encode before).length < limit)
    (above : limit < (encode before).length + (encodeChar c).length) (after : List Char) :
    decode ((encode (before ++ c :: after)).take limit) =
      .error (cutInside (encode before).length (limit - (encode before).length) c) := by
  have cut : (encode (before ++ c :: after)).take limit =
      encode before ++ (encodeChar c).take (limit - (encode before).length) := by
    rw [encode_append, encode_cons, List.take_append, List.take_of_length_le (Nat.le_of_lt below),
      List.take_append_of_le_length (by omega)]
  rw [cut, decode, decodeFrom_encode_append, Nat.zero_add,
    decodeFrom_take_encodeChar _ c (Nat.sub_pos_of_lt below) (Nat.sub_lt_left_of_lt_add
      (Nat.le_of_lt below) above)]
  rfl

/-- A cut inside a character is not one between two characters. If it were, the
same bytes would be both read and refused. -/
theorem not_cutBetween {c : Char} (below : (encode before).length < limit)
    (above : limit < (encode before).length + (encodeChar c).length) (after : List Char) :
    ¬CutBetween limit (before ++ c :: after) := by
  intro between
  obtain ⟨kept, _, cut⟩ := take_encode_of_cutBetween between
  have accepted := decode_eq_ok_iff.mpr cut
  rw [decode_take_encode below above after] at accepted
  cases accepted

end Reckon.Text.Utf8
