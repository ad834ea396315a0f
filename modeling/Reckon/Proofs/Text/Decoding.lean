import Reckon.Proofs.Text.Encoding

/-!
# Only encodings are decoded

What decoding accepts is the encoding of the text that it gives, and of no
other: `decode_eq_ok_iff`.

A byte at a time, the invariant speaks of what is still to come. While a
character is unfinished, the bytes taken for it and any bytes that may continue
it are together the encoding of the character that they complete
(`Lead.Spells`). The bounds that a first byte puts on the second are what makes
this true: without them, a longer form of a character would be accepted too.
-/

namespace Reckon.Text.Utf8

/-! ## What a first byte promises -/

/-- The first bytes of characters, by the number of bytes that they announce.
The bounds on the second byte differ only at the ends of each range. -/
theorem lead_cases {byte : UInt8} {lead : Lead} (leads : Lead.ofByte? byte = some lead) :
    (byte.toNat < 0x80 ∧ lead = { value := byte.toNat, owed := 0 }) ∨
    (∃ value, 2 ≤ value ∧ value < 32 ∧ byte.toNat = 0xC0 + value ∧ lead = { value, owed := 1 }) ∨
    (∃ value < 16, byte.toNat = 0xE0 + value ∧
      lead = { value, owed := 2, low := if value = 0 then 0xA0 else 0x80,
               high := if value = 0xD then 0x9F else 0xBF }) ∨
    ∃ value ≤ 4, byte.toNat = 0xF0 + value ∧
      lead = { value, owed := 3, low := if value = 0 then 0x90 else 0x80,
               high := if value = 4 then 0x8F else 0xBF } := by
  have written {number : Nat} (same : byte.toNat = number) :
      Lead.ofByte? (UInt8.ofNat number) = some lead := by
    rw [← same, UInt8.ofNat_toNat, leads]
  have size := byte.toNat_lt
  by_cases one : byte.toNat < 0x80
  · exact .inl ⟨one, Option.some.inj ((written rfl).symm.trans (ofByte?_one one))⟩
  by_cases outside : byte.toNat < 0xC2 ∨ 0xF4 < byte.toNat
  · have refused : Lead.ofByte? byte = none := by
      unfold Lead.ofByte?
      simp only
      split_ifs <;> first | rfl | omega
    rw [refused] at leads
    cases leads
  by_cases two : byte.toNat < 0xE0
  · obtain ⟨value, same⟩ : ∃ value, byte.toNat = 0xC0 + value := ⟨byte.toNat - 0xC0, by omega⟩
    have least : 2 ≤ value := by omega
    have most : value < 32 := by omega
    exact .inr (.inl ⟨value, least, most, same,
      Option.some.inj ((written same).symm.trans (ofByte?_two least most))⟩)
  by_cases three : byte.toNat < 0xF0
  · obtain ⟨value, same⟩ : ∃ value, byte.toNat = 0xE0 + value := ⟨byte.toNat - 0xE0, by omega⟩
    have most : value < 16 := by omega
    exact .inr (.inr (.inl ⟨value, most, same,
      Option.some.inj ((written same).symm.trans (ofByte?_three most))⟩))
  · obtain ⟨value, same⟩ : ∃ value, byte.toNat = 0xF0 + value := ⟨byte.toNat - 0xF0, by omega⟩
    have most : value ≤ 4 := by omega
    exact .inr (.inr (.inr ⟨value, most, same,
      Option.some.inj ((written same).symm.trans (ofByte?_four most))⟩))

/-- Whatever bytes within bounds come next, as many as are owed, they and those
taken are together the encoding of the character that they complete. -/
def Lead.Spells : Nat → Lead → List UInt8 → Prop
  | 0, lead, taken => encodeChar (Char.ofNat lead.value) = taken
  | owed + 1, lead, taken =>
      ∀ byte : UInt8, lead.low ≤ byte.toNat → byte.toNat ≤ lead.high →
        Lead.Spells owed (lead.push byte) (taken ++ [byte])

theorem ofNat_eq (byte : UInt8) {number : Nat} (same : number = byte.toNat) :
    UInt8.ofNat number = byte := by
  rw [same]
  exact UInt8.ofNat_toNat

section Owed

variable {byte second third fourth : UInt8} {value : Nat}

/-- The bits of two bytes belong to the character that these bytes encode. The
first byte cannot be one of the two that would begin a shorter form. -/
theorem encodeChar_of_two (least : 2 ≤ value) (most : value < 32)
    (first : byte.toNat = 0xC0 + value) (low : 0x80 ≤ second.toNat) (high : second.toNat ≤ 0xBF) :
    encodeChar (Char.ofNat (value * 64 + (second.toNat - 0x80))) = [byte, second] := by
  rw [encodeChar_two (by omega) (by omega), ofNat_eq byte (by omega), ofNat_eq second (by omega)]

/-- The bits of three bytes belong to the character that these bytes encode, if
the second keeps out shorter forms and surrogates. -/
theorem encodeChar_of_three (most : value < 16) (first : byte.toNat = 0xE0 + value)
    (low : (if value = 0 then 0xA0 else 0x80) ≤ second.toNat)
    (high : second.toNat ≤ if value = 0xD then 0x9F else 0xBF)
    (lower : 0x80 ≤ third.toNat) (higher : third.toNat ≤ 0xBF) :
    encodeChar (Char.ofNat ((value * 64 + (second.toNat - 0x80)) * 64 + (third.toNat - 0x80))) =
      [byte, second, third] := by
  have bounds : 0x80 ≤ second.toNat ∧ second.toNat ≤ 0xBF ∧
      (value = 0 → 0xA0 ≤ second.toNat) ∧ (value = 0xD → second.toNat ≤ 0x9F) := by
    split at low <;> split at high <;> omega
  rw [encodeChar_three (by omega) (by omega) (by omega), ofNat_eq byte (by omega),
    ofNat_eq second (by omega), ofNat_eq third (by omega)]

/-- The bits of four bytes belong to the character that these bytes encode, if
the second keeps out shorter forms and what lies beyond the last code point. -/
theorem encodeChar_of_four (most : value ≤ 4) (first : byte.toNat = 0xF0 + value)
    (low : (if value = 0 then 0x90 else 0x80) ≤ second.toNat)
    (high : second.toNat ≤ if value = 4 then 0x8F else 0xBF)
    (lower : 0x80 ≤ third.toNat) (higher : third.toNat ≤ 0xBF)
    (lowest : 0x80 ≤ fourth.toNat) (highest : fourth.toNat ≤ 0xBF) :
    encodeChar
      (Char.ofNat (((value * 64 + (second.toNat - 0x80)) * 64 + (third.toNat - 0x80)) * 64 +
        (fourth.toNat - 0x80))) = [byte, second, third, fourth] := by
  have bounds : 0x80 ≤ second.toNat ∧ second.toNat ≤ 0xBF ∧
      (value = 0 → 0x90 ≤ second.toNat) ∧ (value = 4 → second.toNat ≤ 0x8F) := by
    split at low <;> split at high <;> omega
  rw [encodeChar_four (by omega) (by omega), ofNat_eq byte (by omega),
    ofNat_eq second (by omega), ofNat_eq third (by omega), ofNat_eq fourth (by omega)]

end Owed

/-- A first byte is the encoding of its character together with any bytes that
it owes. The invariant of reading starts here. -/
theorem Lead.spells_of_ofByte? {byte : UInt8} {lead : Lead}
    (leads : Lead.ofByte? byte = some lead) : lead.Spells lead.owed [byte] := by
  rcases lead_cases leads with ⟨most, rfl⟩ | ⟨value, least, most, first, rfl⟩ |
    ⟨value, most, first, rfl⟩ | ⟨value, most, first, rfl⟩
  · exact (encodeChar_one most).trans (congrArg (· :: []) UInt8.ofNat_toNat)
  · exact fun second low high => encodeChar_of_two least most first low high
  · exact fun second low high third lower higher =>
      encodeChar_of_three most first low high lower higher
  · exact fun second low high third lower higher fourth lowest highest =>
      encodeChar_of_four most first low high lower higher lowest highest

/-! ## Decoding -/

/-- What has been taken for an unfinished character can still become its
encoding; between two characters, nothing has been taken. -/
def Held (taken : List UInt8) : Option Begun → Prop
  | none => taken = []
  | some begun => begun.lead.owed ≠ 0 ∧ begun.lead.Spells begun.lead.owed taken

theorem exists_of_map_cons {c : Char} {read : Except Error (List Char)} {text : List Char}
    (accepted : read.map (c :: ·) = .ok text) : ∃ rest, read = .ok rest ∧ text = c :: rest := by
  cases read with
  | error error => cases accepted
  | ok rest => exact ⟨rest, rfl, (Except.ok.inj accepted).symm⟩

theorem encode_cons (c : Char) (rest : List Char) :
    encode (c :: rest) = encodeChar c ++ encode rest :=
  List.flatMap_cons

/-- What is accepted is, with the bytes taken before, the encoding of the text.
The induction is on the bytes to come; each of them is within bounds, since it
is accepted, and so it keeps what the first byte promises. -/
theorem append_eq_encode {position : Nat} {state : Option Begun} {bytes taken : List UInt8}
    {text : List Char} (held : Held taken state)
    (accepted : decodeFrom position state bytes = .ok text) : taken ++ bytes = encode text := by
  -- The induction follows the reader, and `Held` is what it has to keep from one byte to the next.
  fun_induction decodeFrom position state bytes generalizing taken text with
  | case1 =>
    cases accepted
    exact congrArg (· ++ []) held
  | case2 => cases accepted
  | case3 => cases accepted
  | case4 position byte rest lead leads complete ih =>
    obtain ⟨later, read, rfl⟩ := exists_of_map_cons accepted
    obtain rfl : taken = [] := held
    have spelled := Lead.spells_of_ofByte? leads
    rw [complete] at spelled
    rw [encode_cons, ← ih rfl read, show encodeChar _ = [byte] from spelled]
    rfl
  | case5 position byte rest lead leads owing ih =>
    obtain rfl : taken = [] := held
    exact ih ⟨owing, Lead.spells_of_ofByte? leads⟩ accepted
  | case6 position begun byte rest bounds lead complete =>
    rename_i ih
    obtain ⟨later, read, rfl⟩ := exists_of_map_cons accepted
    obtain ⟨owing, spells⟩ := held
    obtain one : begun.lead.owed = 1 := by
      have none : begun.lead.owed - 1 = 0 := complete
      omega
    rw [one] at spells
    have spelled : encodeChar _ = taken ++ [byte] := spells byte bounds.1 bounds.2
    rw [encode_cons, ← ih rfl read, spelled, List.append_assoc]
    rfl
  | case7 position begun byte rest bounds lead incomplete =>
    -- One byte fewer is owed, so what the bytes spell is asked of one byte more.
    rename_i ih
    obtain ⟨owing, spells⟩ := held
    obtain ⟨more, another⟩ := Nat.exists_eq_succ_of_ne_zero owing
    have fewer : lead.owed = more := by
      have less : lead.owed = begun.lead.owed - 1 := rfl
      omega
    rw [another] at spells
    have next := ih ⟨incomplete, fewer ▸ spells byte bounds.1 bounds.2⟩ accepted
    rwa [List.append_assoc] at next
  | case8 => cases accepted

/-- Decoding accepts the encoding of a text and nothing else: longer forms,
surrogates and unfinished characters are all refused. -/
theorem decode_eq_ok_iff {bytes : List UInt8} {text : List Char} :
    decode bytes = .ok text ↔ bytes = encode text := by
  constructor
  · intro accepted
    exact append_eq_encode (show Held [] none from rfl) accepted
  · rintro rfl
    exact decode_encode text

-- A longer form of U+0000, a surrogate, and a code point beyond the last are encodings of nothing.
example : [[0xC0, 0x80], [0xED, 0xA0, 0x80], [0xF4, 0x90, 0x80, 0x80]].all
    (fun bytes => (decode bytes).toOption.isNone) = true := by decide

end Reckon.Text.Utf8
