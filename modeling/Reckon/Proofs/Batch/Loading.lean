import Reckon.Batch.Sheet
import Reckon.Proofs.Text.Decoding
import Reckon.Proofs.Text.Lines

/-!
# Loading undoes writing

An expression file holds clean expressions with blanks around them and line
breaks between them. When it is loaded, these expressions are found again, in
their order and without change, whatever blanks were chosen and whatever stands
for the end of a line. Conversely, a file is loaded whenever its bytes are the
encoding of a text, and what is loaded is clean. So it can be written, one
expression to a line, and loaded again, and nothing changes any more.
-/

namespace Reckon.Batch

open Text

namespace Sheet

def ofText (text : List Char) : Sheet :=
  .holding (Utf8.encode text)

/-- The expressions of a file that holds a text are its fields: decoding undoes
the encoding. -/
theorem load_ofText (text : List Char) :
    (ofText text).load = .ok ((fields text).map String.ofList) := by
  simp only [ofText, load, Utf8.decode_encode]

/-- A file is loaded when its bytes are the encoding of a text, and no other is.
The text is the one that decoding finds. -/
theorem load_holding_eq_ok_iff {bytes : List UInt8} {expressions : List String} :
    (holding bytes).load = .ok expressions ↔
      ∃ text, bytes = Utf8.encode text ∧ expressions = (fields text).map String.ofList := by
  constructor
  · intro loaded
    cases decoded : Utf8.decode bytes with
    | ok text =>
      simp only [load, decoded] at loaded
      exact ⟨text, Utf8.decode_eq_ok_iff.mp decoded, (Except.ok.inj loaded).symm⟩
    | error error =>
      simp only [load, decoded] at loaded
      cases loaded
  · rintro ⟨text, rfl, rfl⟩
    exact load_ofText text

theorem map_ofList_toList (expressions : List String) :
    (expressions.map String.toList).map String.ofList = expressions := by
  rw [List.map_map, String.ofList_comp_toList, List.map_id]

/-- Clean expressions are loaded from a file in which they are written, since
they are the fields of what it holds (`Written.fields_eq`). -/
theorem load_of_written {expressions : List String} {text : List Char}
    (clean : ∀ expression ∈ expressions, IsClean expression.toList)
    (stand : Written (expressions.map String.toList) text) :
    (ofText text).load = .ok expressions := by
  have found : fields text = expressions.map String.toList :=
    stand.fields_eq (List.forall_mem_map.mpr clean)
  rw [load_ofText, found, map_ofList_toList]

/-- What is loaded is clean, because fields are. -/
theorem isClean_of_load {bytes : List UInt8} {expressions : List String}
    (loaded : (holding bytes).load = .ok expressions) :
    ∀ expression ∈ expressions, IsClean expression.toList := by
  obtain ⟨text, _, rfl⟩ := load_holding_eq_ok_iff.mp loaded
  refine List.forall_mem_map.mpr fun field member => ?_
  rw [String.toList_ofList]
  exact isClean_of_mem_fields member

/-- Loading undoes writing. Clean expressions are loaded from every file in
which they are written in their order, with blanks before the first and behind
the last, and blanks with a line break among them between two.

A file whose bytes are the encoding of a text is loaded, whatever the text, and
no other file is. The expressions that it gives are clean, and when they are
written one to a line, loading gives them again. They are what remains of the
lines when each has been stripped, where it does not matter whether the ends of
lines were brought into one form before.

Proof: decoding undoes encoding, so it remains to find the fields of a text. A
line break parts the fields before it from those behind it, and blanks in front
of a text belong to no field; by induction on how the expressions are written,
these two facts find one expression after another (`Written.fields_eq`). One to
a line is such a way of writing them. A line break of two characters only adds
an empty line, which holds no field (`fields_eq_filled`). -/
theorem load_undoes_writing :
    (∀ (expressions : List String) text,
      (∀ expression ∈ expressions, IsClean expression.toList) →
      Written (expressions.map String.toList) text → (ofText text).load = .ok expressions) ∧
    (∀ bytes, (∃ expressions, (holding bytes).load = .ok expressions) ↔
      ∃ text, bytes = Utf8.encode text) ∧
    (∀ bytes expressions, (holding bytes).load = .ok expressions →
      (∀ expression ∈ expressions, IsClean expression.toList) ∧
      (ofText (onePerLine (expressions.map String.toList))).load = .ok expressions) ∧
    ∀ text, (ofText text).load =
      .ok ((filled ((splitLines (unifyLineEnds text)).map strip)).map String.ofList) := by
  refine ⟨fun _ _ => load_of_written, ?_, ?_, ?_⟩
  · intro bytes
    constructor
    · rintro ⟨expressions, loaded⟩
      obtain ⟨text, same, _⟩ := load_holding_eq_ok_iff.mp loaded
      exact ⟨text, same⟩
    · rintro ⟨text, rfl⟩
      exact ⟨_, load_ofText text⟩
  · intro bytes expressions loaded
    have clean := isClean_of_load loaded
    exact ⟨clean, load_of_written clean (written_onePerLine _)⟩
  · intro text
    rw [load_ofText, fields_eq_filled]

/-- Two expressions among blanks and line breaks of many kinds. -/
def mixedText : List Char :=
  ['\r', '\n', ' '] ++ "1+1".toList ++ ['\t', '\r', '\r', '\n', '\u2028', '\u00a0'] ++
    ([] ++ "2 * 3".toList ++ ['\u0085', '\u3000'])

/-- Both expressions are loaded. -/
theorem mixedText_is_loaded : (ofText mixedText).load = .ok ["1+1", "2 * 3"] := by
  have last : Written ["2 * 3".toList] ([] ++ "2 * 3".toList ++ ['\u0085', '\u3000']) :=
    .last nofun (List.all_eq_true.mp rfl)
  have stand : Written (["1+1", "2 * 3"].map String.toList) mixedText :=
    .cons (List.all_eq_true.mp rfl) (List.all_eq_true.mp rfl) ⟨'\n', by simp, rfl⟩ last
  exact load_undoes_writing.1 ["1+1", "2 * 3"] mixedText (by decide) stand

end Sheet

end Reckon.Batch
