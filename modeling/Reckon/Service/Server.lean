import Reckon.Service.Task

/-!
# The server

The server runs one *acceptor*, one *dispatcher* and any number of *workers*; a
*closer* joins when the server is to stop. The acceptor turns connections into
tasks and puts them into a bounded queue, the dispatcher takes them out one by
one and gives each to an idle worker, and the worker processes it.

Threads run one at a time. Those that can run stand in a queue of their own, and
the first of them is running: it acts until it has to wait, and a thread that is
woken goes to the end. So the whole server is one value, and this module holds
its parts and the small operations on them.
-/

namespace Reckon.Service

/-- The host on which the server listens and from which connections come. -/
def loopback : String := "127.0.0.1"

/-- The address at which the server listens. -/
def listeningAddress : Address := { host := loopback, portNumber := 8000 }

/-- The address of a caller; callers are numbered from 1 in the order of their
connections. -/
def callerAddress (number : Nat) : Address := { host := loopback, portNumber := 40000 + number }

/-- What the acceptor meets next, after some microseconds: a pause without
connections, or a connection with what its caller has sent. A connection may be
unable to carry a reply. -/
inductive Arrival where
  | pause (wait : Int)
  | call (wait : Int) (incoming : Except String (List UInt8)) (sendFault : Option String)

/-- What has become of an accepted connection: how often it has been closed, and
the text that was delivered over it. -/
structure Connection where
  timeout : Float
  delivered : String := ""
  closed : Nat := 0
  deriving DecidableEq

/-- A request to be processed, and the connection that waits for the reply. -/
structure Task where
  connection : Nat
  sendFault : Option String
  request : Request
  deriving DecidableEq

/-- What the queue holds and workers are given: a task, or the order to stop. -/
inductive Job where
  | task (task : Task)
  | stop
  deriving DecidableEq

/-- Where a thread stands: it can run, it waits to be woken, it has been put
aside until no other thread can run, or it has ended. Only the acceptor is ever
put aside. -/
inductive Phase where
  | ready
  | waiting
  | aside
  | ended
  deriving DecidableEq, Repr

/-- A worker, with the slot for its job and the flag by which others see whether
it has one. Flag and slot are set together, but nothing in the type ties them:
unless told otherwise, the flag of a worker says whether its slot is full. One
that was told to stop keeps that job and stays busy. -/
structure Worker where
  phase : Phase := .ready
  job : Option Job := none
  busy : Bool := job.isSome
  deriving DecidableEq

/-- The worker is done with its job: its slot is empty, and its flag says so. -/
def Worker.free (worker : Worker) : Worker :=
  { worker with job := none, busy := false }

/-- What the dispatcher is about to do: take from the queue, find a worker for a
task, or tell the workers to stop, from the given one on. -/
inductive Duty where
  | take
  | place (task : Task)
  | dismiss (next : Nat)
  deriving DecidableEq

/-- The dispatcher, with the duty that it has while it runs or waits. -/
structure Dispatcher where
  phase : Phase := .ready
  duty : Duty := .take
  deriving DecidableEq

/-- The closer: not started, about to close the socket, about to put the order
to stop into the queue, waiting for room there, or done. -/
inductive Closer where
  | absent
  | closing
  | ordering
  | waiting
  | ended
  deriving DecidableEq, Repr

/-- A thread of the server. -/
inductive Thread where
  | worker (index : Nat)
  | acceptor
  | dispatcher
  | closer
  deriving DecidableEq, Repr

/-- The state of the server. The first thread of `ready` is running. Lists that
grow do so at the end: connections in the order of arrival, tasks in the order
of queueing, entries in that of writing. -/
structure Server where
  /-- The number of jobs that the queue may hold; zero stands for any number. -/
  capacity : Nat
  /-- The time that a connection may stay silent, in seconds. -/
  timeout : Float
  /-- Shutting the socket down fails, so that only closing it has an effect. -/
  shutdownFails : Bool
  listening : Bool := true
  elapsed : Int := 0
  /-- The readings of the timer that are still to come; after them it reads
  zero. -/
  timer : List Float
  arrivals : List Arrival
  connections : List Connection := []
  queue : List Job := []
  totals : Totals := []
  workers : List Worker
  acceptor : Phase := .ready
  dispatcher : Dispatcher := {}
  closer : Closer := .absent
  ready : List Thread
  log : List Entry := []
  /-- The threads that have ended by a failure. -/
  failed : List Thread := []

namespace Server

/-- Write an event into the journal. -/
def note (server : Server) (event : Event) : Server :=
  { server with log := server.log ++ [{ elapsed := server.elapsed, event }] }

/-- Write several events into the journal. -/
def noteAll (server : Server) (events : List Event) : Server :=
  { server with
    log := server.log ++ events.map fun event => { elapsed := server.elapsed, event } }

/-- The running thread stops running, and the next one in the queue of ready
threads runs. -/
def leave (server : Server) : Server :=
  { server with ready := server.ready.tail }

/-- The running thread ends by a failure. -/
def fail (server : Server) (thread : Thread) : Server :=
  { server with failed := server.failed ++ [thread], ready := server.ready.tail }

/-- The queue can take another job. A capacity of zero means that it always
can. -/
def hasRoom (server : Server) : Bool :=
  server.capacity == 0 || server.queue.length < server.capacity

/-- Close a connection, with the text that was delivered over it. Closing is
counted, so that a connection that is closed twice can be told. -/
def close (server : Server) (connection : Nat) (delivered : String) : Server :=
  { server with
    connections := server.connections.modify connection fun accepted =>
      { accepted with delivered, closed := accepted.closed + 1 } }

/-- Wake the acceptor if it waits for a connection. -/
def wakeAcceptor (server : Server) : Server :=
  if server.acceptor = .waiting then
    { server with acceptor := .ready, ready := server.ready ++ [.acceptor] }
  else server

/-- Wake the dispatcher. -/
def wakeDispatcher (server : Server) : Server :=
  { server with
    dispatcher := { server.dispatcher with phase := .ready }
    ready := server.ready ++ [.dispatcher] }

/-- A job has come into the queue: wake the dispatcher if it waits for one. -/
def wakeForJob (server : Server) : Server :=
  if server.dispatcher = { phase := .waiting, duty := .take } then server.wakeDispatcher else server

/-- A worker has become idle: wake the dispatcher if it waits for that. -/
def wakeForWorker (server : Server) : Server :=
  if server.dispatcher.phase = .waiting ∧ server.dispatcher.duty ≠ .take then server.wakeDispatcher
  else server

/-- A job has left the queue: wake the closer if it waits for room. -/
def wakeForRoom (server : Server) : Server :=
  if server.closer = .waiting then
    { server with closer := .ordering, ready := server.ready ++ [.closer] }
  else server

/-- The dispatcher goes on with another duty. -/
def setDuty (server : Server) (duty : Duty) : Server :=
  { server with dispatcher := { server.dispatcher with duty } }

/-- The dispatcher stops running with a duty still to do. -/
def setDispatcherPhase (server : Server) (phase : Phase) : Server :=
  { server with dispatcher := { server.dispatcher with phase } }

/-- Change a worker. -/
def modifyWorker (server : Server) (index : Nat) (change : Worker → Worker) : Server :=
  { server with workers := server.workers.modify index change }

/-- The first worker that is not busy. Only the flags are asked, never the
slots. -/
def idleWorker? (server : Server) : Option Nat :=
  server.workers.findIdx? fun worker => !worker.busy

/-- Give a worker a job, whatever was in its slot, and wake it if it waits for
one. -/
def assign (server : Server) (index : Nat) (job : Job) : Server :=
  let awaits := server.workers[index]?.any (·.phase = .waiting)
  let given := server.modifyWorker index fun worker => { worker with job := some job, busy := true }
  if awaits then
    { given.modifyWorker index fun worker => { worker with phase := .ready } with
      ready := given.ready ++ [.worker index] }
  else given

end Server

end Reckon.Service
