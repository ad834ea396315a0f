import Mathlib.Tactic.IntervalCases
import Reckon.Text.Utf8

/-!
# Bytes read back

Decoding undoes encoding. A character is cut into groups of six bits, from the
last on, and what is left goes into the first byte; reading puts the groups
together again, one byte at a time. The bounds on the second byte never get in
the way of a character, since they keep out just the shorter forms, the
surrogates and what lies beyond the last code point.
-/

namespace Reckon.Text.Utf8

/-! ## The bytes of a code point -/

section CodePoint

variable {code : Nat}

/-- The number of a character that has one. Surrogates and numbers beyond the
last code point have none. -/
theorem toNat_ofNat (valid : code < 0xD800 ∨ 0xDFFF < code ∧ code < 0x110000) :
    (Char.ofNat code).toNat = code := by
  have isValid : code.isValidChar := valid
  rw [Char.ofNat, dif_pos isValid]
  rfl

theorem encodeChar_one (most : code < 0x80) :
    encodeChar (Char.ofNat code) = [UInt8.ofNat code] := by
  rw [encodeChar, toNat_ofNat (by omega)]
  exact if_pos most

/-- A code point below U+0800 takes two bytes. -/
theorem encodeChar_two (least : 0x80 ≤ code) (most : code < 0x800) :
    encodeChar (Char.ofNat code) =
      [UInt8.ofNat (0xC0 + code / 64), UInt8.ofNat (0x80 + code % 64)] := by
  have number := toNat_ofNat (show code < 0xD800 ∨ 0xDFFF < code ∧ code < 0x110000 by omega)
  simp only [encodeChar, number, Nat.not_lt.mpr least, most, if_true, if_false, Nat.pow_eq,
    pow_zero, Nat.div_one]

/-- A code point below U+10000 takes three bytes. -/
theorem encodeChar_three (least : 0x800 ≤ code) (most : code < 0x10000)
    (valid : code < 0xD800 ∨ 0xDFFF < code) :
    encodeChar (Char.ofNat code) =
      [UInt8.ofNat (0xE0 + code / 4096), UInt8.ofNat (0x80 + code / 64 % 64),
        UInt8.ofNat (0x80 + code % 64)] := by
  have past : ¬code < 0x80 := by omega
  have number := toNat_ofNat (show code < 0xD800 ∨ 0xDFFF < code ∧ code < 0x110000 by omega)
  simp only [encodeChar, number, past, Nat.not_lt.mpr least, most, if_true, if_false, Nat.pow_eq,
    pow_zero, pow_one, Nat.div_one, Nat.reducePow]

/-- Any other code point takes four bytes. -/
theorem encodeChar_four (least : 0x10000 ≤ code) (most : code < 0x110000) :
    encodeChar (Char.ofNat code) =
      [UInt8.ofNat (0xF0 + code / 262144), UInt8.ofNat (0x80 + code / 4096 % 64),
        UInt8.ofNat (0x80 + code / 64 % 64), UInt8.ofNat (0x80 + code % 64)] := by
  have past : ¬code < 0x80 := by omega
  have beyond : ¬code < 0x800 := by omega
  have number := toNat_ofNat (show code < 0xD800 ∨ 0xDFFF < code ∧ code < 0x110000 by omega)
  simp only [encodeChar, number, past, beyond, Nat.not_lt.mpr least, if_false, Nat.pow_eq, pow_zero,
    pow_one, Nat.div_one, Nat.reducePow]

end CodePoint

/-! ## Reading bytes -/

/-- A continuation byte holds the six bits put into it. -/
theorem toNat_continuation (group : Nat) :
    (UInt8.ofNat (0x80 + group % 64)).toNat = 0x80 + group % 64 := by
  rw [UInt8.toNat_ofNat_of_lt']
  have bound := Nat.mod_lt group (show 0 < 64 by decide)
  exact Nat.lt_trans (Nat.add_lt_add_left bound 0x80) (by decide)

theorem ofByte?_one {value : Nat} (most : value < 0x80) :
    Lead.ofByte? (UInt8.ofNat value) = some { value, owed := 0 } := by
  have byte : (UInt8.ofNat value).toNat = value :=
    UInt8.toNat_ofNat_of_lt' (Nat.lt_trans most (by decide))
  simp only [Lead.ofByte?, byte, most, if_true]

/-- The first byte of two announces the bits it holds. -/
theorem ofByte?_two {value : Nat} (least : 2 ≤ value) (most : value < 32) :
    Lead.ofByte? (UInt8.ofNat (0xC0 + value)) = some { value, owed := 1 } := by
  interval_cases value <;> rfl

/-- The first byte of three bounds the second where a shorter form exists and
where surrogates lie. -/
theorem ofByte?_three {value : Nat} (most : value < 16) :
    Lead.ofByte? (UInt8.ofNat (0xE0 + value)) =
      some { value, owed := 2, low := if value = 0 then 0xA0 else 0x80,
             high := if value = 0xD then 0x9F else 0xBF } := by
  interval_cases value <;> rfl

/-- The first byte of four bounds the second where a shorter form exists and
where code points end. -/
theorem ofByte?_four {value : Nat} (most : value ≤ 4) :
    Lead.ofByte? (UInt8.ofNat (0xF0 + value)) =
      some { value, owed := 3, low := if value = 0 then 0x90 else 0x80,
             high := if value = 4 then 0x8F else 0xBF } := by
  interval_cases value <;> rfl

theorem push_continuation (lead : Lead) (group : Nat) :
    lead.push (UInt8.ofNat (0x80 + group % 64)) =
      { value := lead.value * 64 + group % 64, owed := lead.owed - 1 } := by
  have bits : 0x80 + group % 64 - 0x80 = group % 64 := by omega
  unfold Lead.push
  rw [toNat_continuation, bits]

section Continuation

variable {begun : Begun} {group : Nat} (low : begun.lead.low ≤ 0x80 + group % 64)
  (high : 0x80 + group % 64 ≤ begun.lead.high) (position : Nat) (rest : List UInt8)

include low high

/-- The last continuation byte within the bounds completes the character. -/
theorem decodeFrom_last (last : begun.lead.owed = 1) :
    decodeFrom position (some begun) (UInt8.ofNat (0x80 + group % 64) :: rest) =
      (decodeFrom (position + 1) none rest).map
        (Char.ofNat (begun.lead.value * 64 + group % 64) :: ·) := by
  conv_lhs => unfold decodeFrom
  rw [toNat_continuation, if_pos (And.intro low high), push_continuation, last]
  rfl

/-- Another continuation byte within the bounds leaves the character to be
continued, with six more bits in its value. -/
theorem decodeFrom_more (more : 1 < begun.lead.owed) :
    decodeFrom position (some begun) (UInt8.ofNat (0x80 + group % 64) :: rest) =
      decodeFrom (position + 1)
        (some { begun with
          length := begun.length + 1
          lead := { value := begun.lead.value * 64 + group % 64, owed := begun.lead.owed - 1 } })
        rest := by
  have owing : begun.lead.owed - 1 ≠ 0 := by omega
  conv_lhs => unfold decodeFrom
  rw [toNat_continuation, if_pos (And.intro low high), push_continuation]
  exact if_neg owing

end Continuation

/-- A first byte that owes others begins a character. -/
theorem decodeFrom_first {byte : UInt8} {lead : Lead} (leads : Lead.ofByte? byte = some lead)
    (owing : lead.owed ≠ 0) (position : Nat) (rest : List UInt8) :
    decodeFrom position none (byte :: rest) =
      decodeFrom (position + 1) (some { start := position, first := byte, length := 1, lead })
        rest := by
  simp only [decodeFrom, leads, owing, if_false]

/-- The bytes of a character are read as this character. There are four cases,
by the number of bytes; in each the six bits of a continuation byte are put back
behind those read so far. -/
theorem decodeFrom_encodeChar (position : Nat) (c : Char) (rest : List UInt8) :
    decodeFrom position none (encodeChar c ++ rest) =
      (decodeFrom (position + (encodeChar c).length) none rest).map (c :: ·) := by
  have valid : c.toNat < 0xD800 ∨ 0xDFFF < c.toNat ∧ c.toNat < 0x110000 := c.valid
  rw [← Char.ofNat_toNat c]
  generalize c.toNat = code at valid
  by_cases one : code < 0x80
  · rw [encodeChar_one one]
    simp only [List.singleton_append, List.length_singleton, decodeFrom, ofByte?_one one, if_true]
  by_cases two : code < 0x800
  · have whole : code / 64 * 64 + code % 64 = code := by omega
    have first := decodeFrom_first (ofByte?_two (show 2 ≤ code / 64 by omega) (by omega))
      Nat.one_ne_zero position
    rw [encodeChar_two (by omega) two, List.cons_append, List.singleton_append, first,
      decodeFrom_last (by simp) (by simp; omega) _ _ rfl, whole]
    rfl
  by_cases three : code < 0x10000
  · have whole : (code / 4096 * 64 + code / 64 % 64) * 64 + code % 64 = code := by omega
    have first := decodeFrom_first (ofByte?_three (show code / 4096 < 16 by omega))
      (Nat.succ_ne_zero 1) position
    rw [encodeChar_three (by omega) three (by omega)]
    simp only [List.cons_append, List.nil_append]
    rw [first, decodeFrom_more (by dsimp only; split <;> omega)
      (by dsimp only; split <;> omega) _ _ Nat.one_lt_two,
      decodeFrom_last (by simp) (by simp; omega) _ _ rfl, whole]
    rfl
  · have whole : ((code / 262144 * 64 + code / 4096 % 64) * 64 + code / 64 % 64) * 64 +
        code % 64 = code := by omega
    have first := decodeFrom_first (ofByte?_four (show code / 262144 ≤ 4 by omega))
      (Nat.succ_ne_zero 2) position
    rw [encodeChar_four (by omega) (by omega)]
    simp only [List.cons_append, List.nil_append]
    rw [first, decodeFrom_more (by dsimp only; split <;> omega)
      (by dsimp only; split <;> omega) _ _ (by simp),
      decodeFrom_more (by simp) (by simp; omega) _ _ (by simp),
      decodeFrom_last (by simp) (by simp; omega) _ _ rfl, whole]
    rfl

/-- Decoding undoes encoding, one character after another. -/
theorem decode_encode (text : List Char) : decode (encode text) = .ok text := by
  have onward (position : Nat) : decodeFrom position none (encode text) = .ok text := by
    induction text generalizing position with
    | nil => rfl
    | cons c rest ih =>
      rw [encode, List.flatMap_cons, decodeFrom_encodeChar]
      exact congrArg (Except.map (c :: ·)) (ih _)
  exact onward 0

/-- A usual character takes one byte, so the length of a text of such characters
is also that of its bytes. -/
theorem length_encode_of_ascii {text : List Char} (ascii : ∀ c ∈ text, c.toNat < 0x80) :
    (encode text).length = text.length := by
  induction text with
  | nil => rfl
  | cons c rest ih =>
    have single : encodeChar c = [UInt8.ofNat c.toNat] := if_pos (ascii c List.mem_cons_self)
    have others := ih fun other member => ascii other (List.mem_cons_of_mem c member)
    rw [encode, List.flatMap_cons, single, List.length_append, List.length_singleton,
      List.length_cons, Nat.add_comm]
    exact congrArg (· + 1) others

end Reckon.Text.Utf8
