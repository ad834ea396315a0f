import Reckon.Service.Server

/-!
# One action of the server

`Server.step` lets the running thread act once. An action is the largest piece
of work between two points at which the thread might wait: a connection accepted
and queued, a job taken and placed, a task processed. Afterwards the thread
either is still running or has left the queue of ready threads.

When no thread can run, an acceptor that was put aside goes on. A server is at
rest when there is none either, and then `step` changes nothing.
-/

namespace Reckon.Service.Server

/-- Handle an accepted connection: queue its request, reject it if the queue is
full, or give the connection up if it brought no request. -/
def receive (server : Server) (incoming : Except String (List UInt8)) (sendFault : Option String) :
    Server :=
  let connection := server.connections.length
  let accepted : Connection := { timeout := server.timeout }
  let opened := { server with connections := server.connections ++ [accepted] }
  match Wire.receive incoming with
  | .error fault =>
    (opened.note (.noRequest (callerAddress (connection + 1)) fault)).close connection ""
  | .ok text =>
      let request := Request.ofText text
      if opened.hasRoom then
        let job := Job.task { connection, sendFault, request }
        ({ opened with queue := opened.queue ++ [job] }.wakeForJob).note (.queued request)
      else
        (opened.noteAll (.rejected request :: lossEvents (.rejectionLost request) sendFault)).close
          connection (delivery Settings.rejection sendFault)

/-- The acceptor accepts the next connection. It is put aside by a pause, waits
when nothing arrives any more, and ends once the server has stopped
listening. -/
def accept (server : Server) : Server :=
  if server.listening then
    match server.arrivals with
    | [] => { server with acceptor := .waiting }.leave
    | .pause wait :: later =>
        { server with
          arrivals := later
          elapsed := server.elapsed + wait
          acceptor := .aside }.leave
    | .call wait incoming sendFault :: later =>
        { server with
          arrivals := later
          elapsed := server.elapsed + wait }.receive incoming sendFault
  else { server.note .acceptorStopped with acceptor := .ended }.leave

/-- The dispatcher gives a task to a worker and is free to take another. -/
def place (server : Server) (worker : Nat) (task : Task) : Server :=
  ((server.assign worker (.task task)).note (.assigned task.request)).setDuty .take

/-- The dispatcher does its duty: it takes a job when it has none, places a task
when a worker is idle, and dismisses the workers one after another as they
become idle. It waits when it cannot go on. -/
def dispatch (server : Server) : Server :=
  match server.dispatcher.duty with
  | .take =>
      match server.queue with
      | [] => (server.setDispatcherPhase .waiting).leave
      | .stop :: later => ({ server with queue := later }.wakeForRoom).setDuty (.dismiss 0)
      | .task task :: later =>
          let taken := ({ server with queue := later }.wakeForRoom).note (.taken task.request)
          match taken.idleWorker? with
          | some worker => taken.place worker task
          | none =>
            (((taken.note .allBusy).setDuty (.place task)).setDispatcherPhase .waiting).leave
  | .place task =>
      match server.idleWorker? with
      | some worker => server.place worker task
      | none => (server.setDispatcherPhase .waiting).leave
  | .dismiss next =>
      match server.workers[next]? with
      | none => ((server.note .dispatcherStopped).setDispatcherPhase .ended).leave
      | some worker =>
          if worker.busy then (server.setDispatcherPhase .waiting).leave
          else (server.assign next .stop).setDuty (.dismiss (next + 1))

/-- The next two readings of the timer, before and after an evaluation. -/
def timing (server : Server) : Timing :=
  { start := server.timer.headD 0, finish := server.timer.tail.headD 0 }

/-- A worker processes a task, sends the reply and closes the connection. The
totals are those after the task, whether or not the reply could be sent. -/
def perform (server : Server) (task : Task) : Server :=
  let report := process server.totals task.request server.timing task.sendFault
  ({ server with
    totals := report.totals
    timer := server.timer.drop 2 }.noteAll report.events).close task.connection report.delivered

/-- A worker does its job: it processes a task and is idle again, ends when told
to stop, and waits when it is not busy. A busy worker with an empty slot
fails. -/
def work (server : Server) (index : Nat) : Server :=
  match server.workers[index]? with
  | none => server.leave
  | some worker =>
      if worker.busy then
        match worker.job with
        | some (Job.task task) =>
          ((server.perform task).modifyWorker index Worker.free).wakeForWorker
        | some Job.stop =>
            (server.modifyWorker index fun worker => { worker with phase := .ended }).leave
        | none =>
            (server.modifyWorker index fun worker => { worker with phase := .ended }).fail
              (.worker index)
      else (server.modifyWorker index fun worker => { worker with phase := .waiting }).leave

/-- The server no longer listens: an acceptor that waits for a connection is
woken to find that out. -/
def stopListening (server : Server) : Server :=
  { server with listening := false }.wakeAcceptor

/-- The closer shuts the socket down, closes it, and puts the order to stop into
the queue as soon as there is room. -/
def shut (server : Server) : Server :=
  match server.closer with
  | .closing =>
      let shutDown := if server.shutdownFails then server else server.stopListening
      { shutDown.stopListening with closer := .ordering }
  | .ordering =>
      if server.hasRoom then
        { { server with queue := server.queue ++ [Job.stop] }.wakeForJob with
          closer := .ended }.leave
      else { server with closer := .waiting }.leave
  | .absent => server.leave
  | .waiting => server.leave
  | .ended => server.leave

/-- One action of the running thread. When no thread can run, an acceptor that
was put aside by a pause becomes ready again; otherwise nothing happens. -/
def step (server : Server) : Server :=
  match server.ready with
  | [] =>
      if server.acceptor = .aside then { server with acceptor := .ready, ready := [.acceptor] }
      else server
  | .acceptor :: _ => server.accept
  | .dispatcher :: _ => server.dispatch
  | .worker index :: _ => server.work index
  | .closer :: _ => server.shut

/-- No thread can run, now or later, unless something comes from outside. -/
def isAtRest (server : Server) : Bool :=
  server.ready.isEmpty && server.acceptor != .aside

end Reckon.Service.Server
