import Reckon.Service.Server

/-!
# A single call

A server with nothing else to do answers one call: it receives the request,
accepts no further connection, and processes the request. Its timer stands still
meanwhile.
-/

namespace Reckon.Service

/-- Answer a call that has sent the given bytes. A call without a request gets
no reply. -/
def answer (totals : Totals) (incoming : List UInt8) : Report :=
  match Wire.receive (.ok incoming) with
  | .error fault =>
      { delivered := "", totals
        events := [.noRequest (callerAddress 1) fault, .acceptorStopped] }
  | .ok text =>
      let request := Request.ofText text
      let report := process totals request { start := 0, finish := 0 } none
      { report with events := .queued request :: .acceptorStopped :: report.events }

end Reckon.Service
