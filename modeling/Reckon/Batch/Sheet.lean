import Reckon.Text.Blank
import Reckon.Text.Utf8

/-!
# Expression files

An expression file is UTF-8 text with one expression to a line. Lines are
stripped of surrounding blanks, and lines without anything else are left out. A
byte order mark is not a blank and stays.
-/

namespace Reckon.Batch

/-- An expression file: one that does not exist, or its bytes. -/
inductive Sheet where
  | missing (name : String)
  | holding (bytes : List UInt8)

/-- Why an expression file could not be loaded. -/
inductive SheetError where
  | missing (name : String)
  | undecodable (error : Text.Utf8.Error)
  deriving DecidableEq

/-- The wording of a failure to load. -/
def SheetError.message : SheetError → String
  | .missing name =>
      let quoted := Text.Quoted.quote name.toList
      s!"[Errno 2] No such file or directory: {quoted}"
  | .undecodable error => error.message

/-- The expressions of a file, in order. -/
def Sheet.load : Sheet → Except SheetError (List String)
  | .missing name => .error (.missing name)
  | .holding bytes =>
      match Text.Utf8.decode bytes with
      | .ok text => .ok ((Text.fields text).map String.ofList)
      | .error error => .error (.undecodable error)

end Reckon.Batch
