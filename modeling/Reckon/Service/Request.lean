import Reckon.Text.Blank

/-!
# Requests

A request names its client, a colon, and the expression to evaluate. The first
colon divides the two; later ones belong to the expression. Both parts are
stripped of surrounding blanks. A request without a colon is an expression from
an unknown client.
-/

namespace Reckon.Service

/-- A request to evaluate an expression on behalf of a client. -/
structure Request where
  client : String
  expression : String
  deriving DecidableEq, Repr

namespace Request

/-- The client of a request that does not name one. -/
def unknownClient : String := "unknown"

/-- Read a request. -/
def ofText (text : List Char) : Request :=
  match text.dropWhile (· ≠ ':') with
  | [] => { client := unknownClient, expression := String.ofList (Text.strip text) }
  | _ :: expression =>
      { client := String.ofList (Text.strip (text.takeWhile (· ≠ ':')))
        expression := String.ofList (Text.strip expression) }

end Request

end Reckon.Service
