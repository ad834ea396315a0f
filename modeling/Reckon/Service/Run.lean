import Reckon.Service.Step
import Reckon.Weight

/-!
# A run of the server

A scenario says how large the server is, what arrives, and when it is told to
stop: once it has come to rest, at once, or never. A run goes through actions
until the server is at rest.

The number of actions is bounded in advance by the *load* of the server: what
every arrival, every job and every thread can still cause. Each action lowers
the load, so after as many actions as the load says nothing is left to do.
-/

namespace Reckon.Service

/-- When the server is told to stop. -/
inductive Stop where
  | drained
  | immediate
  | never
  deriving DecidableEq, Repr

/-- What a run of the server depends on. -/
structure Scenario where
  workers : Nat
  capacity : Nat
  timeout : Float
  timer : List Float
  stop : Stop
  shutdownFails : Bool
  arrivals : List Arrival

/-- A call on the listening socket. -/
inductive SocketCall where
  | setOption
  | bind (host : String) (portNumber : Nat)
  | listen (backlog : Nat)
  | shutdown
  | close
  deriving DecidableEq, Repr

/-- The text that shows a call. -/
def SocketCall.text : SocketCall → String
  | .setOption => "setsockopt"
  | .bind host portNumber => s!"bind {host}:{portNumber}"
  | .listen backlog => s!"listen {backlog}"
  | .shutdown => "shutdown"
  | .close => "close"

namespace Server

open scoped Weight

/-- A server that has just been started. Its threads are ready in the order in
which they were created: the workers, the acceptor, the dispatcher. -/
def start (scenario : Scenario) : Server :=
  let server : Server :=
    { capacity := scenario.capacity
      timeout := scenario.timeout
      shutdownFails := scenario.shutdownFails
      timer := scenario.timer
      arrivals := scenario.arrivals
      workers := List.replicate scenario.workers {}
      ready := (List.range scenario.workers).map .worker ++ [.acceptor, .dispatcher] }
  server.note (.started listeningAddress)

/-- Start the closer, which joins the threads that are ready as the last one. -/
def requestStop (server : Server) : Server :=
  { server with closer := .closing, ready := server.ready ++ [.closer] }

/-- The load of a worker's job: a task is processed, and the dispatcher may have
to be woken. -/
def jobLoad : Job → Nat
  | .task _ => 2
  | .stop => 0

/-- The load of a job in the queue. A task has to be taken, placed and
processed; the order to stop causes every worker to be dismissed. -/
def queuedLoad (workers : Nat) : Job → Nat
  | .task _ => 6
  | .stop => 2 * workers + 3

/-- The load of the dispatcher's duty. -/
def dutyLoad (workers : Nat) : Duty → Nat
  | .take => 0
  | .place _ => 4
  | .dismiss next => 2 * (workers - next) + 1

/-- The load of the closer. -/
def closerLoad (workers : Nat) : Closer → Nat
  | .absent => 0
  | .closing => 2 * workers + 7
  | .ordering => 2 * workers + 5
  | .waiting => 2 * workers + 5
  | .ended => 0

/-- The load of the acceptor: one that was put aside has to be made ready
again. -/
def acceptorLoad : Phase → Nat
  | .aside => 2
  | .ready => 0
  | .waiting => 0
  | .ended => 0

/-- The load of a worker is that of its job. -/
def workerLoad (worker : Worker) : Nat :=
  (worker.job.map jobLoad).getD 0

/-- A bound on the number of actions that are left. Every thread that is ready
and everything still to be done is counted with the actions that it may
cause. -/
def load (server : Server) : Nat :=
  let workers := server.workers.length
  server.ready.length + acceptorLoad server.acceptor + 8 * server.arrivals.length +
    (server.queue.map (queuedLoad workers)).sum + dutyLoad workers server.dispatcher.duty +
    (server.workers.map workerLoad).sum + closerLoad workers server.closer

/-- The server after a number of actions. -/
def steps : Nat → Server → Server
  | 0, server => server
  | count + 1, server => steps count server.step

/-- The server at rest: as many actions later as its load says. -/
def settle (server : Server) : Server :=
  steps server.load server

/-- The calls made on the listening socket. It is shut down and closed only when
the server has stopped listening. -/
def socketCalls (server : Server) : List SocketCall :=
  [.setOption, .bind loopback 0, .listen 5] ++
    if server.listening then [] else [.shutdown, .close]

/-- The busy flags of the workers. -/
def busyFlags (server : Server) : List Bool :=
  server.workers.map (·.busy)

end Server

/-- The server at the end of a run. -/
def Scenario.run (scenario : Scenario) : Server :=
  let started := Server.start scenario
  match scenario.stop with
  | .drained => started.settle.requestStop.settle
  | .immediate => started.requestStop.settle
  | .never => started.settle

end Reckon.Service
