import Reckon.Proofs.Text.Field

/-!
# Fields between line breaks

A line break parts the fields before it from those behind it
(`fields_append_break`), and blanks in front of a text belong to no field
(`fields_blank_append`). Everything about fields follows from these two
equations.

The fields of a text are *clean*: they are not empty, begin and end with a
character that is no blank, and hold no line break. `Written` says how clean
fields may be set down: with blanks around each of them and a line break
somewhere between two. Then they are found again, whatever blanks were chosen
(`Written.fields_eq`).

A line break of two characters has an empty line between its halves, which holds
no field. So it makes no difference whether the ends of lines are brought into
one form first (`fields_unifyLineEnds`), or whether both halves together end one
line (`fields_eq_filled`).
-/

namespace Reckon.Text

variable {text before after pad field : List Char} {c : Char}

/-! ## Lines -/

/-- The lines are the pieces between the line breaks, as the library cuts
them. -/
theorem lines_eq_splitOnP (text : List Char) : lines text = text.splitOnP isLineBreak := by
  induction text with
  | nil => simp [lines]
  | cons c rest ih =>
    rw [List.splitOnP_cons_eq_if_modifyHead, lines, ih]
    split
    · rfl
    · obtain ⟨line, later, found⟩ :=
        List.exists_cons_of_ne_nil (List.splitOnP_ne_nil isLineBreak rest)
      rw [found]
      rfl

/-- A line break parts the lines before it from those behind it, so the text on
either side may be cut separately. -/
theorem lines_append_break (broken : isLineBreak c = true) (before after : List Char) :
    lines (before ++ c :: after) = lines before ++ lines after := by
  simp only [lines_eq_splitOnP]
  exact List.splitOnP_append_cons before after broken

theorem lines_of_unbroken (unbroken : ∀ c ∈ text, isLineBreak c = false) : lines text = [text] := by
  rw [lines_eq_splitOnP]
  exact List.splitOnP_eq_singleton unbroken

/-- No line holds a line break. -/
theorem unbroken_of_mem_lines {line : List Char} (member : line ∈ lines text) :
    ∀ c ∈ line, isLineBreak c = false := by
  induction text generalizing line with
  | nil =>
    obtain rfl := List.mem_singleton.mp member
    exact nofun
  | cons first rest ih =>
    rw [lines] at member
    split at member
    · rcases List.mem_cons.mp member with rfl | later
      · exact nofun
      · exact ih later
    · rename_i inside
      have kept := Bool.eq_false_iff.mpr inside
      split at member
      · obtain rfl := List.mem_singleton.mp member
        simpa using kept
      · rename_i line later found
        rcases List.mem_cons.mp member with rfl | further
        · exact List.forall_mem_cons.mpr ⟨kept, ih (found ▸ List.mem_cons_self)⟩
        · exact ih (found ▸ List.mem_cons_of_mem _ further)

/-! ## Fields and blanks -/

/-- A line break parts the fields before it from those behind it. Every other
fact about where fields begin and end goes back to this one. -/
theorem fields_append_break (broken : isLineBreak c = true) (before after : List Char) :
    fields (before ++ c :: after) = fields before ++ fields after := by
  simp only [fields, lines_append_break broken, List.filterMap_append]

theorem fields_cons_break (broken : isLineBreak c = true) (text : List Char) :
    fields (c :: text) = fields text :=
  fields_append_break broken [] text

/-- A blank in front of a text belongs to no field. It is a line break of its
own, or it is stripped from the first line. -/
theorem fields_cons_blank (blank : isBlank c = true) (text : List Char) :
    fields (c :: text) = fields text := by
  by_cases broken : isLineBreak c = true
  · exact fields_cons_break broken text
  · obtain ⟨line, later, found⟩ :=
      List.exists_cons_of_ne_nil (List.splitOnP_ne_nil isLineBreak text)
    rw [← lines_eq_splitOnP] at found
    have stripped : strip (c :: line) = strip line := by
      rw [strip, strip, trim, List.dropWhile_cons_of_pos blank]
      rfl
    simp only [fields, lines, if_neg broken, found, List.filterMap_cons, stripped]

/-- Blanks in front of a text belong to no field, however many and of whatever
kind. -/
theorem fields_blank_append (blanks : ∀ c ∈ pad, isBlank c = true) (text : List Char) :
    fields (pad ++ text) = fields text := by
  induction pad with
  | nil => rfl
  | cons c rest ih =>
    obtain ⟨blank, others⟩ := List.forall_mem_cons.mp blanks
    rw [List.cons_append, fields_cons_blank blank, ih others]

theorem fields_of_blanks (blanks : ∀ c ∈ pad, isBlank c = true) : fields pad = [] := by
  have none := fields_blank_append blanks []
  rwa [List.append_nil] at none

/-! ## Clean fields -/

/-- A text that can be a field of a file: there is something in it, it begins
and ends with a character that is no blank, and it stands on one line. -/
structure IsClean (field : List Char) : Prop where
  nonempty : field ≠ []
  leading : ∀ c ∈ field.head?, isBlank c = false
  trailing : ∀ c ∈ field.getLast?, isBlank c = false
  unbroken : ∀ c ∈ field, isLineBreak c = false

instance (field : List Char) : Decidable (IsClean field) :=
  decidable_of_iff
    (field ≠ [] ∧ (field.head?.all fun c => !isBlank c) ∧ (field.getLast?.all fun c => !isBlank c) ∧
      field.all fun c => !isLineBreak c)
    (by
      simp only [Option.all_eq_true, List.all_eq_true, Bool.not_eq_true']
      exact ⟨fun ⟨nonempty, leading, trailing, unbroken⟩ => ⟨nonempty, leading, trailing, unbroken⟩,
        fun clean => ⟨clean.nonempty, clean.leading, clean.trailing, clean.unbroken⟩⟩)

/-- The fields of a text are clean, because each is what stripping has left of a
line. -/
theorem isClean_of_mem_fields (member : field ∈ fields text) : IsClean field := by
  obtain ⟨line, present, kept⟩ := List.mem_filterMap.mp member
  obtain ⟨written, same⟩ := Option.ite_none_left_eq_some.mp kept
  obtain rfl := Option.some.inj same
  refine ⟨by simpa using written, ?_, ?_, ?_⟩
  · exact head?_of_dropWhile_eq dropWhile_trim
  · rw [← List.head?_reverse]
    exact head?_of_dropWhile_eq dropWhile_reverse_trim
  · intro c inside
    exact unbroken_of_mem_lines present c (mem_of_mem_trim inside)

/-- Blanks behind a clean text do not belong to its field. Up to the first line
break they are stripped; behind it they are no field of their own. -/
theorem IsClean.fields_append_blank (clean : IsClean field) (blanks : ∀ c ∈ pad, isBlank c = true) :
    fields (field ++ pad) = [field] := by
  have line {gap : List Char} (blanks : ∀ c ∈ gap, isBlank c = true)
      (unbroken : ∀ c ∈ gap, isLineBreak c = false) : fields (field ++ gap) = [field] := by
    have single : lines (field ++ gap) = [field ++ gap] :=
      lines_of_unbroken (List.forall_mem_append.mpr ⟨clean.unbroken, unbroken⟩)
    have stripped : strip (field ++ gap) = field :=
      trim_append_padding clean.nonempty clean.leading clean.trailing blanks
    simp [fields, single, stripped, clean.nonempty]
  cases first : pad.find? isLineBreak with
  | none => exact line blanks (by simpa using List.find?_eq_none.mp first)
  | some c =>
    obtain ⟨broken, gap, more, rfl, unbroken⟩ := List.find?_eq_some_iff_append.mp first
    obtain ⟨inGap, behind⟩ := List.forall_mem_append.mp blanks
    rw [← List.append_assoc, fields_append_break broken, line inGap (by simpa using unbroken),
      fields_of_blanks (List.forall_mem_cons.mp behind).2, List.append_nil]

/-! ## Fields that are written down -/

/-- Fields stand in a text in their order: around them are blanks only, and
there is a line break somewhere between two of them. -/
inductive Written : List (List Char) → List Char → Prop where
  /-- There are no fields. -/
  | blank {pad : List Char} (blanks : ∀ c ∈ pad, isBlank c = true) : Written [] pad
  /-- Only blanks are around the last field. -/
  | last {before after field : List Char} (leading : ∀ c ∈ before, isBlank c = true)
      (trailing : ∀ c ∈ after, isBlank c = true) : Written [field] (before ++ field ++ after)
  /-- The gap behind another field has a line break. -/
  | cons {before gap field text : List Char} {rest : List (List Char)}
      (leading : ∀ c ∈ before, isBlank c = true) (blanks : ∀ c ∈ gap, isBlank c = true)
      (broken : ∃ c ∈ gap, isLineBreak c = true) (written : Written rest text) :
      Written (field :: rest) (before ++ field ++ gap ++ text)

/-- Clean fields are found where they are written. By induction on how they are
written: the blanks in front belong to no field, and the line break behind the
first field parts it from the others. -/
theorem Written.fields_eq {written : List (List Char)} (stand : Written written text)
    (clean : ∀ field ∈ written, IsClean field) : fields text = written := by
  induction stand with
  | blank blanks => exact fields_of_blanks blanks
  | last leading trailing =>
    rw [List.append_assoc, fields_blank_append leading]
    exact (clean _ List.mem_cons_self).fields_append_blank trailing
  | @cons before gap field text rest leading blanks broken _ ih =>
    obtain ⟨c, inside, breaks⟩ := broken
    obtain ⟨first, second, rfl⟩ := List.append_of_mem inside
    obtain ⟨inFirst, behind⟩ := List.forall_mem_append.mp blanks
    have inSecond := (List.forall_mem_cons.mp behind).2
    have shape : before ++ field ++ (first ++ c :: second) ++ text =
        before ++ (field ++ first) ++ c :: (second ++ text) := by simp
    rw [shape, fields_append_break breaks, fields_blank_append leading,
      fields_blank_append inSecond, (clean field List.mem_cons_self).fields_append_blank inFirst,
      ih fun other member => clean other (List.mem_cons_of_mem field member)]
    rfl

def onePerLine (fields : List (List Char)) : List Char :=
  fields.flatMap (· ++ ['\n'])

/-- Fields that are written one to a line stand there, each with the line feed
behind it. -/
theorem written_onePerLine (fields : List (List Char)) : Written fields (onePerLine fields) := by
  induction fields with
  | nil => exact .blank nofun
  | cons field rest ih =>
    have feed : isLineBreak '\n' = true := rfl
    have gap : ∀ c ∈ ['\n'], isBlank c = true := by simp [isBlank_of_isLineBreak _ feed]
    exact @Written.cons [] ['\n'] field _ rest nofun gap ⟨'\n', List.mem_cons_self, feed⟩ ih

/-! ## One form for the ends of lines -/

/-- Bring the ends of lines into one form: a carriage return, with the line feed
behind it if there is one, becomes a line feed. -/
def unifyLineEnds : List Char → List Char
  | [] => []
  | '\r' :: '\n' :: rest => '\n' :: unifyLineEnds rest
  | '\r' :: rest => '\n' :: unifyLineEnds rest
  | c :: rest => c :: unifyLineEnds rest

/-- The ends of lines may be brought into one form before the fields are found.
A line break is replaced by another one, and a line feed behind a carriage
return can be left out, as it stands in front of no field. -/
theorem fields_unifyLineEnds (text : List Char) : fields (unifyLineEnds text) = fields text := by
  have feed : isLineBreak '\n' = true := rfl
  have carriage : isLineBreak '\r' = true := rfl
  -- What stands before on the same line is of no account, since the forms differ only at its end.
  suffices onward :
      ∀ line, fields (line ++ unifyLineEnds text) = fields (line ++ text) from onward []
  fun_induction unifyLineEnds text with
  | case1 => exact fun line => rfl
  | case2 rest ih =>
    intro line
    rw [fields_append_break feed, fields_append_break carriage, fields_cons_break feed]
    exact congrArg (fields line ++ ·) (ih [])
  | case3 rest _ ih =>
    intro line
    rw [fields_append_break feed, fields_append_break carriage]
    exact congrArg (fields line ++ ·) (ih [])
  | case4 c rest _ _ ih =>
    intro line
    have longer := ih (line ++ [c])
    rwa [List.append_assoc, List.append_assoc] at longer

/-! ## Lines that are ended by their breaks -/

/-- The lines of a text, each ended by a line break; a carriage return and the
line feed behind it are one line break, and behind the last one there is no
empty line. -/
def splitLines : List Char → List (List Char)
  | [] => []
  | '\r' :: '\n' :: rest => [] :: splitLines rest
  | c :: rest =>
      if isLineBreak c then [] :: splitLines rest
      else match splitLines rest with
        | [] => [[c]]
        | line :: later => (c :: line) :: later

/-- The lines that are not empty. -/
def filled (lines : List (List Char)) : List (List Char) :=
  lines.filter fun line => !line.isEmpty

/-- Both ways to cut a text into lines give the same first line, if there is any
text, and up to empty lines the same other lines. The first line has to be
spoken of, since the induction puts characters in front of it. -/
theorem filled_lines (text : List Char) :
    filled (lines text) = filled (splitLines text) ∧
      (text ≠ [] → (lines text).head? = (splitLines text).head? ∧
        filled (lines text).tail = filled (splitLines text).tail) := by
  fun_induction splitLines text with
  | case1 => exact ⟨rfl, nofun⟩
  | case2 rest ih =>
    have cut : lines ('\r' :: '\n' :: rest) = [] :: [] :: lines rest := rfl
    rw [cut]
    exact ⟨ih.1, fun _ => ⟨rfl, ih.1⟩⟩
  | case3 c rest pair broken ih =>
    have cut : lines (c :: rest) = [] :: lines rest := if_pos broken
    rw [cut]
    exact ⟨ih.1, fun _ => ⟨rfl, ih.1⟩⟩
  | case4 c rest pair inside none ih =>
    -- Text that is left over has a first line, so there is none.
    have empty : rest = [] := by
      by_contra present
      have same := (ih.2 present).1
      rw [none, lines_eq_splitOnP] at same
      exact List.splitOnP_ne_nil isLineBreak rest (List.head?_eq_none_iff.mp same)
    rw [empty, lines, if_neg inside]
    exact ⟨rfl, fun _ => ⟨rfl, rfl⟩⟩
  | case5 c rest pair inside line later found ih =>
    have present : rest ≠ [] := by
      rintro rfl
      cases found
    obtain ⟨first, others⟩ := ih.2 present
    rw [found] at first others
    obtain ⟨more, cut⟩ := List.head?_eq_some_iff.mp first
    rw [cut] at others
    have longer : lines (c :: rest) = (c :: line) :: more := by
      rw [lines, if_neg inside, cut]
    rw [longer]
    exact ⟨congrArg ((c :: line) :: ·) others, fun _ => ⟨rfl, others⟩⟩

/-- The fields are the lines that are not empty once they have been stripped. -/
theorem filterMap_strip (lines : List (List Char)) :
    lines.filterMap (fun line =>
      let field := strip line
      if field.isEmpty then none else some field) = filled (lines.map strip) := by
  induction lines with
  | nil => rfl
  | cons line later ih =>
    by_cases empty : (strip line).isEmpty = true
    · simp only [List.filterMap_cons, empty, if_true, ih, List.map_cons, filled, List.filter_cons,
        Bool.not_true, Bool.false_eq_true, if_false]
    · simp only [List.filterMap_cons, empty, ih, List.map_cons, filled, List.filter_cons,
        Bool.not_false, Bool.false_eq_true, if_true, if_false]

theorem filled_map_strip (lines : List (List Char)) :
    filled (lines.map strip) = filled ((filled lines).map strip) := by
  induction lines with
  | nil => rfl
  | cons line later ih =>
    cases line with
    | nil => exact ih
    | cons c rest =>
      have kept : filled ((c :: rest) :: later) = (c :: rest) :: filled later := rfl
      rw [kept, List.map_cons, List.map_cons, filled, filled, List.filter_cons, List.filter_cons]
      exact congrArg (fun tail => if !(strip (c :: rest)).isEmpty then _ :: tail else tail) ih

/-- The fields can be found in three passes: the ends of lines are brought into
one form, the text is cut into lines, and these are stripped and left out if
nothing remains. -/
theorem fields_eq_filled (text : List Char) :
    fields text = filled ((splitLines (unifyLineEnds text)).map strip) := by
  rw [← fields_unifyLineEnds, fields, filterMap_strip, filled_map_strip, (filled_lines _).1,
    ← filled_map_strip]

end Reckon.Text
