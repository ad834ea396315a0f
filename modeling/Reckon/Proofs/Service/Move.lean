import Reckon.Service.Run

/-!
# The moves of the server

An action of the running thread is made of moves, each of which does one thing:
a connection is accepted and queued, a thread is woken, a worker is given a job,
a thread stops running. `Move` lists them all, with what has to hold before and
the server that comes out. Whatever every move preserves is preserved by every
action, so what a server can do has to be looked at only once.

A thread that waits for something is woken just before that thing happens.
Therefore the moves that queue a job, take one out, or free a worker require
that nobody waits for it any more.
-/

namespace Reckon.Service

/-- The task that a request becomes when it is heard on the next connection. It
keeps the number of this connection, on which the reply has to be sent. -/
def Server.taskFor (server : Server) (sendFault : Option String) (text : List Char) : Task :=
  { connection := server.connections.length, sendFault, request := Request.ofText text }

/-- A new connection, with the text delivered over it if it is closed at
once. -/
def Server.connection (server : Server) (delivered : String) (closed : Nat) : Connection :=
  { timeout := server.timeout, delivered, closed }

/-- One move of a server. The premises say which thread runs, what it finds, and
that nobody is left waiting for what the move brings about. -/
inductive Move (server : Server) : Server → Prop where
  /-- The acceptor goes on after a pause. -/
  | resume (quiet : server.ready = []) (aside : server.acceptor = .aside) :
      Move server { server with acceptor := .ready, ready := [.acceptor] }
  /-- The acceptor waits for a connection. -/
  | await {later : List Thread} (running : server.ready = .acceptor :: later)
      (listening : server.listening = true) (exhausted : server.arrivals = []) :
      Move server { server with acceptor := .waiting, ready := later }
  /-- The acceptor is put aside by a pause. -/
  | pause {later : List Thread} {wait : Int} {arrivals : List Arrival}
      (running : server.ready = .acceptor :: later) (listening : server.listening = true)
      (next : server.arrivals = .pause wait :: arrivals) :
      Move server
        { server with
          arrivals
          elapsed := server.elapsed + wait
          acceptor := .aside
          ready := later }
  /-- A connection brings no request and is closed. -/
  | drop {later : List Thread} {wait : Int} {incoming : Except String (List UInt8)}
      {sendFault : Option String} {arrivals : List Arrival} {fault : Wire.Fault}
      (running : server.ready = .acceptor :: later) (listening : server.listening = true)
      (next : server.arrivals = .call wait incoming sendFault :: arrivals)
      (faulty : Wire.receive incoming = .error fault) :
      Move server
        ({ server with
          arrivals
          elapsed := server.elapsed + wait
          connections := server.connections ++ [server.connection "" 1] }.note
            (.noRequest (callerAddress (server.connections.length + 1)) fault))
  /-- A request finds the queue full, and its connection is closed. -/
  | reject {later : List Thread} {wait : Int} {incoming : Except String (List UInt8)}
      {sendFault : Option String} {arrivals : List Arrival} {text : List Char}
      (running : server.ready = .acceptor :: later) (listening : server.listening = true)
      (next : server.arrivals = .call wait incoming sendFault :: arrivals)
      (heard : Wire.receive incoming = .ok text) (full : server.hasRoom = false) :
      Move server
        ({ server with
          arrivals
          elapsed := server.elapsed + wait
          connections := server.connections ++
            [server.connection (delivery Settings.rejection sendFault) 1] }.noteAll
            (.rejected (Request.ofText text) ::
              lossEvents (.rejectionLost (Request.ofText text)) sendFault))
  /-- A request enters the queue. -/
  | enter {later : List Thread} {wait : Int} {incoming : Except String (List UInt8)}
      {sendFault : Option String} {arrivals : List Arrival} {text : List Char}
      (running : server.ready = .acceptor :: later) (listening : server.listening = true)
      (next : server.arrivals = .call wait incoming sendFault :: arrivals)
      (heard : Wire.receive incoming = .ok text) (room : server.hasRoom = true)
      (notified : ¬(server.dispatcher.phase = .waiting ∧ server.dispatcher.duty = .take)) :
      Move server
        ({ server with
          arrivals
          elapsed := server.elapsed + wait
          connections := server.connections ++ [server.connection "" 0]
          queue := server.queue ++ [Job.task (server.taskFor sendFault text)] }.note
            (.queued (Request.ofText text)))
  /-- The acceptor finds that the server has stopped listening, and ends. -/
  | retire {later : List Thread} (running : server.ready = .acceptor :: later)
      (silent : server.listening = false) :
      Move server ({ server with acceptor := .ended, ready := later }.note .acceptorStopped)
  /-- The dispatcher is woken. -/
  | wakeDispatcher (waiting : server.dispatcher.phase = .waiting) :
      Move server server.wakeDispatcher
  /-- The dispatcher waits for a job. -/
  | starve {later : List Thread} (running : server.ready = .dispatcher :: later)
      (free : server.dispatcher.duty = .take) (empty : server.queue = []) :
      Move server
        { server with dispatcher := { server.dispatcher with phase := .waiting }, ready := later }
  /-- The dispatcher takes a task out of the queue. -/
  | take {later : List Thread} {task : Task} {rest : List Job}
      (running : server.ready = .dispatcher :: later) (free : server.dispatcher.duty = .take)
      (front : server.queue = .task task :: rest) (notified : server.closer ≠ .waiting) :
      Move server
        ({ server with
          queue := rest
          dispatcher := { server.dispatcher with duty := .place task } }.note (.taken task.request))
  /-- The dispatcher takes the order to stop out of the queue. -/
  | heed {later : List Thread} {rest : List Job} (running : server.ready = .dispatcher :: later)
      (free : server.dispatcher.duty = .take) (front : server.queue = .stop :: rest)
      (notified : server.closer ≠ .waiting) :
      Move server
        { server with queue := rest, dispatcher := { server.dispatcher with duty := .dismiss 0 } }
  /-- The dispatcher gives its task to an idle worker and wakes it. -/
  | place {later : List Thread} {task : Task} {index : Nat} {worker : Worker}
      (running : server.ready = .dispatcher :: later) (holds : server.dispatcher.duty = .place task)
      (found : server.workers[index]? = some worker) (idle : worker.job = none)
      (asleep : worker.phase ≠ .ready) :
      Move server
        ({ server with
          workers := server.workers.set index { phase := .ready, job := some (.task task) }
          ready := server.ready ++ [Thread.worker index]
          dispatcher := { server.dispatcher with duty := .take } }.note (.assigned task.request))
  /-- The dispatcher finds no idle worker for its task, and waits for one. -/
  | stall {later : List Thread} {task : Task} (events : List Event)
      (running : server.ready = .dispatcher :: later) (holds : server.dispatcher.duty = .place task)
      (busy : ∀ worker ∈ server.workers, worker.job ≠ none)
      (silent : ∀ event ∈ events, event = .allBusy) :
      Move server
        ({ server with
          dispatcher := { server.dispatcher with phase := .waiting }
          ready := later }.noteAll events)
  /-- The dispatcher waits for the worker that it has to dismiss next. -/
  | linger {later : List Thread} {next : Nat} {worker : Worker} {job : Job}
      (running : server.ready = .dispatcher :: later)
      (dismisses : server.dispatcher.duty = .dismiss next)
      (found : server.workers[next]? = some worker) (busy : worker.job = some job) :
      Move server
        { server with dispatcher := { server.dispatcher with phase := .waiting }, ready := later }
  /-- The dispatcher tells an idle worker to stop and wakes it. -/
  | dismiss {later : List Thread} {next : Nat} {worker : Worker}
      (running : server.ready = .dispatcher :: later)
      (dismisses : server.dispatcher.duty = .dismiss next)
      (found : server.workers[next]? = some worker) (idle : worker.job = none)
      (asleep : worker.phase ≠ .ready) :
      Move server
        { server with
          workers := server.workers.set next { phase := .ready, job := some .stop }
          ready := server.ready ++ [.worker next]
          dispatcher := { server.dispatcher with duty := .dismiss (next + 1) } }
  /-- The dispatcher has dismissed all workers, and ends. -/
  | conclude {later : List Thread} {next : Nat} (running : server.ready = .dispatcher :: later)
      (dismisses : server.dispatcher.duty = .dismiss next) (all : server.workers.length ≤ next) :
      Move server
        ({ server with
          dispatcher := { server.dispatcher with phase := .ended }, ready := later }.note
            .dispatcherStopped)
  /-- A worker waits for a job. -/
  | idle {later : List Thread} {index : Nat} {worker : Worker}
      (running : server.ready = .worker index :: later)
      (found : server.workers[index]? = some worker) (free : worker.job = none) :
      Move server
        { server with
          workers := server.workers.set index { worker with phase := .waiting }, ready := later }
  /-- A worker takes its order to stop, and ends. -/
  | quit {later : List Thread} {index : Nat} {worker : Worker}
      (running : server.ready = .worker index :: later)
      (found : server.workers[index]? = some worker) (told : worker.job = some .stop) :
      Move server
        { server with
          workers := server.workers.set index { worker with phase := .ended }, ready := later }
  /-- A worker processes its task and is idle again. -/
  | work {later : List Thread} {index : Nat} {worker : Worker} {task : Task}
      (running : server.ready = .worker index :: later)
      (found : server.workers[index]? = some worker) (given : worker.job = some (.task task))
      (notified : ¬(server.dispatcher.phase = .waiting ∧ server.dispatcher.duty ≠ .take)) :
      Move server
        { server.perform task with
          workers := server.workers.set index worker.free }
  /-- The closer stops the server from listening while the acceptor does not
  wait for a connection. -/
  | silence {later : List Thread} (running : server.ready = .closer :: later)
      (begins : server.closer = .closing) (elsewhere : server.acceptor ≠ .waiting) :
      Move server { server with listening := false, closer := .ordering }
  /-- The closer stops the server from listening, and wakes the acceptor that
  waits for a connection. -/
  | interrupt {later : List Thread} (running : server.ready = .closer :: later)
      (begins : server.closer = .closing) (waiting : server.acceptor = .waiting) :
      Move server
        { server with
          listening := false
          acceptor := .ready
          ready := server.ready ++ [.acceptor]
          closer := .ordering }
  /-- The closer puts the order to stop into the queue, and ends. -/
  | order {later : List Thread} (running : server.ready = .closer :: later)
      (orders : server.closer = .ordering) (room : server.hasRoom = true)
      (notified : ¬(server.dispatcher.phase = .waiting ∧ server.dispatcher.duty = .take)) :
      Move server
        { server with queue := server.queue ++ [.stop], closer := .ended, ready := later }
  /-- The closer waits for room in the queue. -/
  | hold {later : List Thread} (running : server.ready = .closer :: later)
      (orders : server.closer = .ordering) (full : server.hasRoom = false) :
      Move server { server with closer := .waiting, ready := later }
  /-- The closer is woken. -/
  | wakeCloser (waiting : server.closer = .waiting) :
      Move server { server with closer := .ordering, ready := server.ready ++ [.closer] }

end Reckon.Service
