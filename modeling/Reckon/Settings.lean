/-!
# Settings

The fixed values of the evaluation service, of the batch client and of their
journals, and the two replies that are not values.
-/

namespace Reckon.Settings

/-- The reply to a request that found the queue full. -/
def rejection : String := "rejected"

/-- The reply to an expression without a value, also shown by a keypad. -/
def failure : String := "Error"

/-- The settings of the service. Times are in seconds. -/
structure Service where
  host : String
  portNumber : Nat
  queueSize : Nat
  workers : Nat
  receiveSize : Nat
  receiveTimeout : Float

/-- The service accepts connections on every interface. -/
def service : Service :=
  { host := "0.0.0.0", portNumber := 8000, queueSize := 30, workers := 200, receiveSize := 1024,
    receiveTimeout := 5.0 }

/-- The settings of the batch client. The timeout and the delay between two
requests are in seconds. -/
structure Batch where
  host : String
  portNumber : Nat
  retryDelay : Float
  maxRetries : Nat
  timeout : Float
  files : List String

/-- The batch client speaks to a service on its own machine. -/
def batch : Batch :=
  { host := "127.0.0.1", portNumber := 8000, retryDelay := 0.001, maxRetries := 50, timeout := 10.0,
    files := ["data/expression/expression1.txt", "data/expression/expression2.txt",
      "data/expression/expression3.txt", "data/expression/expression4.txt"] }

/-- The names of the journal files and the patterns of their lines. -/
structure Journal where
  serviceFile : String
  batchFile : String
  line : String
  date : String

/-- Each batch client has a file of its own, named after its number. -/
def journal : Journal :=
  { serviceFile := "Server.txt", batchFile := "Client\x7bclient_num\x7d.txt",
    line := "%(asctime)s - %(message)s", date := "%Y-%m-%d %H:%M:%S" }

end Reckon.Settings
