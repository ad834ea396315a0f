import Reckon.Calendar
import Reckon.Clock
import Reckon.Double.Layout

/-!
# Journals

The service and every batch client keep a journal. A message carries the reading
of the clock at the moment that it speaks of, and a line of the file the date
and time at which it was written.

Opening a journal empties its file and replaces the writer of an earlier
session, so there is one writer however often it was opened.
-/

namespace Reckon

/-- A message with a reading of the clock. -/
def stampedAt (reading : Float) (message : String) : String :=
  let shown := Double.text reading
  s!"[System Clock : {shown}ms] {message}"

/-- A message with the reading of the clock after some microseconds. -/
def stamped (elapsed : Int) (message : String) : String :=
  stampedAt (Clock.reading elapsed) message

/-- A journal file and the number of its writers. -/
structure Journal where
  writers : Nat
  content : String

/-- A note for a journal: the moment of writing in seconds since the start of
1970, the clock in microseconds, and the message. -/
structure Note where
  written : Int
  elapsed : Int
  message : String

namespace Journal

/-- A journal just opened for a session. -/
def opened : Journal :=
  { writers := 1, content := "" }

/-- The line of a note. -/
def line (note : Note) : String :=
  let moment := Calendar.timestamp note.written
  let text := stamped note.elapsed note.message
  s!"{moment} - {text}\n"

/-- Write a note at the end of the file. -/
def write (journal : Journal) (note : Note) : Journal :=
  { journal with content := journal.content ++ line note }

/-- The journal at the end of a session: its notes in the order of writing, and
no earlier ones. -/
def session (notes : List Note) : Journal :=
  notes.foldl write opened

end Journal

end Reckon
