/-!
# Blanks and line breaks

Fields of a request and lines of an expression file may be surrounded by *blank*
characters that do not belong to them, and an expression file is cut at *line
breaks*. Both classes are fixed sets of characters, and a line break is always a
blank.

`trim` removes a class from both ends and leaves the inside alone. `lines` cuts
at every line break: the pair of carriage return and line feed therefore has an
empty line between its two halves, which a reader that drops empty lines never
sees.
-/

namespace Reckon.Text

/-- The blanks are the Unicode white space characters and the four information
separators U+001C to U+001F. Zero-width characters and the byte order mark are
not among them. -/
def isBlank (c : Char) : Bool :=
  let code := c.toNat
  (0x09 ≤ code && code ≤ 0x0D) || (0x1C ≤ code && code ≤ 0x20) || code == 0x85 || code == 0xA0 ||
    code == 0x1680 || (0x2000 ≤ code && code ≤ 0x200A) || code == 0x2028 || code == 0x2029 ||
    code == 0x202F || code == 0x205F || code == 0x3000

/-- The line breaks: line feed, vertical tab, form feed, carriage return, the
information separators U+001C to U+001E, next line, line separator and paragraph
separator. -/
def isLineBreak (c : Char) : Bool :=
  let code := c.toNat
  (0x0A ≤ code && code ≤ 0x0D) || (0x1C ≤ code && code ≤ 0x1E) || code == 0x85 || code == 0x2028 ||
    code == 0x2029

/-- Every line break is a blank, so a line break at the end of a field is
trimmed away. -/
theorem isBlank_of_isLineBreak (c : Char) (broken : isLineBreak c = true) : isBlank c = true := by
  simp only [isLineBreak, isBlank, Bool.or_eq_true, Bool.and_eq_true, decide_eq_true_eq,
    beq_iff_eq] at *
  omega

/-- Remove the leading and the trailing characters of a class. -/
def trim (padding : Char → Bool) (text : List Char) : List Char :=
  ((text.dropWhile padding).reverse.dropWhile padding).reverse

/-- Remove the surrounding blanks of a field. -/
def strip (text : List Char) : List Char :=
  trim isBlank text

/-- Cut a text at every line break. A text without line breaks is one line, and
the empty text is one empty line. -/
def lines : List Char → List (List Char)
  | [] => [[]]
  | c :: rest =>
      if isLineBreak c then [] :: lines rest
      else match lines rest with
        | [] => [[c]]
        | line :: later => (c :: line) :: later

/-- The lines, each trimmed of its surrounding blanks; lines of blanks alone are
left out. -/
def fields (text : List Char) : List (List Char) :=
  (lines text).filterMap fun line =>
    let field := strip line
    if field.isEmpty then none else some field

end Reckon.Text
