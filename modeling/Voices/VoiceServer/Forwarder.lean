import Std.Data.TreeMap
import Voices.VoiceServer.Connection

/-!
# The forwarder of a voice channel

`channel/mod.rs`: one task per channel that owns the socket, the connection
tables and the set of voice tasks. Its state is paired with the spawned tasks
themselves, which run at the same time: `VoiceChannel` is the forwarder, every
task it ever spawned, and the broadcast they share. `Await` says where the
forwarder is suspended, so that between a request to a task and its answer all
other tasks may take steps.
-/

namespace Voices.VoiceServer

open Semantics Std

/-- A voice task, named by the join handle under which it was spawned. -/
abbrev TaskId := Nat

structure VoiceControl where
  sourceId : UInt32
  userName : String
  tx : TaskId
  deriving DecidableEq

structure Conn where
  tx : TaskId
  ctl : VoiceControl
  addr : Option SocketAddr
  deriving DecidableEq

structure VoiceTask where
  handle : TaskId
  clientId : Uuid
  srcId : UInt32
  deriving DecidableEq

structure Peer where
  id : Uuid
  sourceId : UInt32
  name : String
  deriving DecidableEq

structure Forwarder where
  connections : TreeMap UInt32 Conn
  clientIdToSrcId : TreeMap Uuid UInt32
  tasks : List VoiceTask
  roomId : Uuid

inductive ChannelCtl where
  | openConnection (clientId : Uuid) (userName : String)
  | establish (clientId : Uuid) (clientAddr : SocketAddr)
  | leave (clientId : Uuid)
  | peers
  | status (clientId : Uuid)
  deriving DecidableEq

/-- What a responder is sent. `none` stands for `Err(PeerNotFound)`. -/
inductive Response where
  | opened (sourceId : UInt32)
  | established (response : Option InitResponse)
  | left
  | peers (peers : List Peer)
  | status (state : Option ConnectionState)
  deriving DecidableEq

inductive ForwardError where
  | badAddr (expected got : SocketAddr)
  | sessionNotEstablished
  | stopped
  | unexpectedSource (sourceId : UInt32)
  deriving DecidableEq

inductive EventResult where
  | ok (goOn : Bool)
  | err
  deriving DecidableEq

inductive Output where
  | returned (result : EventResult)
  | panicked
  | answered (ctl : ChannelCtl) (response : Response)
  | forwarded (task : TaskId) (sender : SocketAddr) (msg : InternalMsg)
  | forwardFailed (error : ForwardError)
  | sent (addr : SocketAddr) (message : ServerMessage)
  | endNotified (roomId : Uuid)
  | task (task : TaskId) (output : TaskOutput)
  deriving DecidableEq

inductive Await where
  | event
  | forward (tx : TaskId) (sender : SocketAddr) (msg : InternalMsg)
  | control (ctl : ChannelCtl) (tx : TaskId)
  | peers (id : Uuid) (conn : Conn) (rest : List (Uuid × Conn)) (peers : List Peer)
  | leaving
  | ended
  | panicked
  deriving DecidableEq

/-- `idle` is the deadline of the timeout that the current turn of `run` waits for,
`oneshot` the channel on which the task answers the request in flight, and `voice`
everything that was sent on `voice_tx`. -/
structure VoiceChannel where
  now : Instant
  forwarder : Forwarder
  await : Await
  idle : Option Instant
  oneshot : Option Reply
  spawned : List VoiceConnection
  voice : List (UInt32 × Voice)

/-- The values that `VoiceConnection::start` draws at random. -/
structure Draw where
  sourceId : UInt32
  cryptKey : Key

inductive Event where
  | tick (millis : Nat)
  | datagram (sender : SocketAddr) (bytes : List UInt8) (sendOk : Bool)
  | recvFailed
  | control (ctl : ChannelCtl) (draw : Draw)
  | controlClosed
  | reap (index : Nat)
  | resume
  | idleTimeout
  | notified
  | task (task : TaskId) (branch : Branch)

/-- `VoiceConnection::start`: the control half, the handle that is awaited, and the task. -/
def VoiceConnection.start (clientId : Uuid) (userName : String) (draw : Draw) (handle : TaskId)
    (now : Instant) : VoiceControl × VoiceTask × VoiceConnection :=
  ({ sourceId := draw.sourceId, userName, tx := handle },
    { handle, clientId, srcId := draw.sourceId },
    { msgRx := [], controlChan := [], clientId, sourceId := draw.sourceId
      cryptKey := draw.cryptKey, phase := .waiting (now + idleTimeout) })

/-- `Conn::new`; both queues of a connection lead to the same task. -/
def Conn.new (control : VoiceControl) : Conn := { tx := control.tx, ctl := control, addr := none }

def channelIdleTimeout : Nat := 5000

/-- The capacity of the queue on which a task receives datagrams. -/
def msgCapacity : Nat := 10

namespace VoiceChannel

/-- The top of the loop of `run`. -/
def turn (s : VoiceChannel) : VoiceChannel :=
  { s with
    await := .event
    idle := if s.forwarder.tasks.isEmpty then some (s.now + channelIdleTimeout) else none }

def returned (s : VoiceChannel) (result : EventResult) (output : List Output) :
    VoiceChannel × List Output :=
  (s.turn, output ++ [.returned result])

def respond (s : VoiceChannel) (ctl : ChannelCtl) (response : Response) : VoiceChannel × List Output :=
  s.returned (.ok true) [.answered ctl response]

/-- The forwarder is dropped, and with it its tables and the handles of its tasks. -/
def dropped (s : VoiceChannel) : VoiceChannel :=
  { s with forwarder := { s.forwarder with connections := ∅, clientIdToSrcId := ∅, tasks := [] } }

def panic (s : VoiceChannel) : VoiceChannel × List Output :=
  ({ s.dropped with await := .panicked }, [.panicked])

def taskRunning (s : VoiceChannel) (tx : TaskId) : Bool :=
  match s.spawned[tx]? with
  | some c => c.running
  | none => false

/-- Whether the forwarder still holds the sending ends of the queues of a task. -/
def senders (s : VoiceChannel) (tx : TaskId) : Bool :=
  s.forwarder.connections.toList.any fun entry => entry.2.tx == tx

def setTask (s : VoiceChannel) (tx : TaskId) (c : VoiceConnection) : VoiceChannel :=
  { s with spawned := s.spawned.set tx c }

/-- The sending half of `VoiceControl::{init, status, stop}`: it fails when the task has
ended. At most one request is in flight, so the capacity of the queue is never reached. -/
def request (s : VoiceChannel) (tx : TaskId) (req : ControlRequest) : Option VoiceChannel :=
  match s.spawned[tx]? with
  | none => none
  | some c =>
    if c.running then
      some { s.setTask tx { c with controlChan := c.controlChan ++ [req] } with oneshot := none }
    else none

def forwardFailed (s : VoiceChannel) (error : ForwardError) : VoiceChannel × List Output :=
  s.returned (.ok true) [.forwardFailed error]

/-- `self.tx.send(msg).await` of `Conn::forward`: without room it waits. -/
def sendMsg (s : VoiceChannel) (tx : TaskId) (sender : SocketAddr) (msg : InternalMsg) :
    VoiceChannel × List Output :=
  match s.spawned[tx]? with
  | none => s.forwardFailed .stopped
  | some c =>
    if c.running then
      if c.msgRx.length < msgCapacity then
        (s.setTask tx { c with msgRx := c.msgRx ++ [msg] }).returned (.ok true)
          [.forwarded tx sender msg]
      else ({ s with await := .forward tx sender msg }, [])
    else s.forwardFailed .stopped

def connForward (s : VoiceChannel) (conn : Conn) (sender : SocketAddr) (msg : InternalMsg) :
    VoiceChannel × List Output :=
  match conn.addr with
  | none => s.forwardFailed .sessionNotEstablished
  | some addr =>
    if sameAddr addr sender then s.sendMsg conn.tx sender msg
    else s.forwardFailed (.badAddr addr sender)

/-- `Forwarder::forward` with the warning that `socket_msg` makes of its error. -/
def forward (s : VoiceChannel) (sender : SocketAddr) (sourceId : UInt32) (msg : InternalMsg) :
    VoiceChannel × List Output :=
  match s.forwarder.connections[sourceId]? with
  | none => s.forwardFailed (.unexpectedSource sourceId)
  | some conn => s.connForward conn sender msg

def ipDisco (s : VoiceChannel) (sender : SocketAddr) (disco : IpDiscoveryRequest) (sendOk : Bool) :
    VoiceChannel × List Output :=
  match s.forwarder.connections[disco.sourceId]? with
  | some _ =>
    let answer := ServerMessage.ipDisco { ip := sender.ip.toString, port := sender.port.toUInt32 }
    s.returned (.ok true) (if sendOk then [.sent sender answer] else [])
  | none => s.returned (.ok true) []

/-- A message without payload runs into the `todo!()`. -/
def socketMsg (s : VoiceChannel) (sender : SocketAddr) (msg : ClientMessage) (sendOk : Bool) :
    VoiceChannel × List Output :=
  match msg.payload with
  | some (.ipDisco disco) => s.ipDisco sender disco sendOk
  | some (.voice voice) => s.forward sender voice.sourceId (.voice voice)
  | some (.ping ping) => s.forward sender ping.sourceId (.ping ping)
  | none => s.panic

/-- `recv_proto_from` and what `event` makes of its result. -/
def recvDatagram (env : Env) (s : VoiceChannel) (sender : SocketAddr) (bytes : List UInt8)
    (sendOk : Bool) : VoiceChannel × List Output :=
  match env.decode bytes with
  | some msg => s.socketMsg sender msg sendOk
  | none => s.returned (.ok true) []

def openConnection (s : VoiceChannel) (clientId : Uuid) (userName : String) (draw : Draw) :
    VoiceChannel × List Output :=
  let (control, task, spawned) :=
    VoiceConnection.start clientId userName draw s.spawned.length s.now
  let opened : VoiceChannel := { s with
    spawned := s.spawned ++ [spawned]
    forwarder := { s.forwarder with
      tasks := s.forwarder.tasks ++ [task]
      connections := s.forwarder.connections.insert control.sourceId (Conn.new control)
      clientIdToSrcId := s.forwarder.clientIdToSrcId.insert clientId control.sourceId } }
  opened.respond (.openConnection clientId userName) (.opened control.sourceId)

def bind (s : VoiceChannel) (srcId : UInt32) (conn : Conn) (addr : SocketAddr) : VoiceChannel :=
  { s with forwarder := { s.forwarder with
      connections := s.forwarder.connections.insert srcId { conn with addr := some addr } } }

/-- The address is bound before the task is asked, and stays bound when the task is gone. -/
def establish (s : VoiceChannel) (clientId : Uuid) (clientAddr : SocketAddr) :
    VoiceChannel × List Output :=
  let ctl := ChannelCtl.establish clientId clientAddr
  match s.forwarder.clientIdToSrcId[clientId]? with
  | none => s.respond ctl (.established none)
  | some srcId =>
    match s.forwarder.connections[srcId]? with
    | none => s.panic
    | some conn =>
      let bound := s.bind srcId conn clientAddr
      match bound.request conn.ctl.tx (.init clientAddr) with
      | some asked => ({ asked with await := .control ctl conn.ctl.tx }, [])
      | none => bound.returned .err []

/-- The loop of `Peers` over the zipped tables; it is suspended at each `status().await`. -/
def pollPeers (s : VoiceChannel) : List (Uuid × Conn) → List Peer → VoiceChannel × List Output
  | [], peers => s.respond .peers (.peers peers)
  | (id, conn) :: rest, peers =>
    match s.request conn.ctl.tx .status with
    | some asked => ({ asked with await := .peers id conn rest peers }, [])
    | none => s.pollPeers rest peers

/-- `client_id_to_src_id.keys().zip(connections.values())`. -/
def zipped (s : VoiceChannel) : List (Uuid × Conn) :=
  s.forwarder.clientIdToSrcId.keys.zip (s.forwarder.connections.toList.map Prod.snd)

def leave (s : VoiceChannel) (clientId : Uuid) : VoiceChannel × List Output :=
  let ctl := ChannelCtl.leave clientId
  match s.forwarder.clientIdToSrcId[clientId]?.bind (s.forwarder.connections[·]?) with
  | none => s.respond ctl .left
  | some conn =>
    match s.request conn.ctl.tx .stop with
    | some asked => ({ asked with await := .control ctl conn.ctl.tx }, [])
    | none => s.respond ctl .left

def status (s : VoiceChannel) (clientId : Uuid) : VoiceChannel × List Output :=
  let ctl := ChannelCtl.status clientId
  match s.forwarder.clientIdToSrcId[clientId]? with
  | none => s.respond ctl (.status none)
  | some srcId =>
    match s.forwarder.connections[srcId]? with
    | none => s.panic
    | some conn =>
      match s.request conn.ctl.tx .status with
      | some asked => ({ asked with await := .control ctl conn.ctl.tx }, [])
      | none => s.respond ctl (.status (some .stopped))

def controlMsg (s : VoiceChannel) (draw : Draw) : ChannelCtl → VoiceChannel × List Output
  | .openConnection clientId userName => s.openConnection clientId userName draw
  | .establish clientId clientAddr => s.establish clientId clientAddr
  | .peers => s.pollPeers s.zipped []
  | .leave clientId => s.leave clientId
  | .status clientId => s.status clientId

/-- The branch of `event` on a finished task. The record is only removed together with
an entry of the client in `client_id_to_src_id`. -/
def reapTask (s : VoiceChannel) (index : Nat) (task : VoiceTask) : VoiceChannel × List Output :=
  let f : Forwarder := { s.forwarder with tasks := s.forwarder.tasks.eraseIdx index }
  let reaped : Forwarder :=
    match f.clientIdToSrcId[task.clientId]? with
    | some srcId =>
      { f with
        clientIdToSrcId :=
          if srcId = task.srcId then f.clientIdToSrcId.erase task.clientId else f.clientIdToSrcId
        connections := f.connections.erase task.srcId }
    | none => f
  { s with forwarder := reaped }.returned (.ok true) []

/-- The answer of a task, or its end, reaches the request of `control_msg` that waits for it. -/
def resumeControl (s : VoiceChannel) (ctl : ChannelCtl) (tx : TaskId) :
    Option (VoiceChannel × List Output) :=
  match ctl, s.oneshot with
  | .establish .., some (.init response) => some (s.respond ctl (.established (some response)))
  | .leave _, some .stop => some (s.respond ctl .left)
  | .status _, some (.status state) => some (s.respond ctl (.status (some state)))
  | .establish .., none => if s.taskRunning tx then none else some (s.returned .err [])
  | .leave _, none => if s.taskRunning tx then none else some (s.respond ctl .left)
  | .status _, none =>
    if s.taskRunning tx then none else some (s.respond ctl (.status (some .stopped)))
  | _, _ => none

def resumePeers (s : VoiceChannel) (id : Uuid) (conn : Conn) (rest : List (Uuid × Conn))
    (peers : List Peer) : Option (VoiceChannel × List Output) :=
  match s.oneshot with
  | some (.status .peered) =>
    some (s.pollPeers rest
      (peers ++ [{ id, sourceId := conn.ctl.sourceId, name := conn.ctl.userName }]))
  | some _ => some (s.pollPeers rest peers)
  | none => if s.taskRunning conn.ctl.tx then none else some (s.pollPeers rest peers)

def resumeForward (s : VoiceChannel) (tx : TaskId) (sender : SocketAddr) (msg : InternalMsg) :
    Option (VoiceChannel × List Output) :=
  match s.spawned[tx]? with
  | some c =>
    if c.running && msgCapacity ≤ c.msgRx.length then none else some (s.sendMsg tx sender msg)
  | none => some (s.sendMsg tx sender msg)

def resume (s : VoiceChannel) : Option (VoiceChannel × List Output) :=
  match s.await with
  | .forward tx sender msg => s.resumeForward tx sender msg
  | .control ctl tx => s.resumeControl ctl tx
  | .peers id conn rest peers => s.resumePeers id conn rest peers
  | _ => none

/-- The `select!` of `event` takes a branch only when the forwarder is not inside a handler. -/
def select (s : VoiceChannel) (handled : VoiceChannel × List Output) :
    Option (VoiceChannel × List Output) :=
  match s.await with
  | .event => some handled
  | _ => none

def looping (s : VoiceChannel) : Bool :=
  match s.await with
  | .leaving => false
  | .ended => false
  | .panicked => false
  | _ => true

def pollTask (env : Env) (s : VoiceChannel) (tx : TaskId) (branch : Branch) :
    Option (VoiceChannel × List Output) :=
  match s.spawned[tx]? with
  | none => none
  | some c =>
    (c.poll env s.now (s.senders tx) s.voice branch).map fun outcome =>
      ({ s.setTask tx outcome.task with
          oneshot := outcome.reply <|> s.oneshot
          voice := s.voice ++ outcome.voice.toList },
        outcome.output.map (.task tx))

def step (env : Env) (s : VoiceChannel) : Event → Option (VoiceChannel × List Output)
  | .tick millis => some ({ s with now := s.now + millis }, [])
  | .datagram sender bytes sendOk => s.select (s.recvDatagram env sender bytes sendOk)
  | .recvFailed => s.select (s.returned (.ok true) [])
  | .control ctl draw => s.select (s.controlMsg draw ctl)
  | .controlClosed => s.select ({ s with await := .leaving }, [.returned (.ok false)])
  | .reap index =>
    match s.forwarder.tasks[index]? with
    | some task => if s.taskRunning task.handle then none else s.select (s.reapTask index task)
    | none => none
  | .resume => s.resume
  | .idleTimeout =>
    match s.idle with
    | some deadline =>
      if s.looping && deadline ≤ s.now then some ({ s with await := .leaving }, []) else none
    | none => none
  | .notified =>
    match s.await with
    | .leaving => some ({ s.dropped with await := .ended }, [.endNotified s.forwarder.roomId])
    | _ => none
  | .task tx branch => s.pollTask env tx branch

/-- `Forwarder::new`, at the first turn of `run`. -/
def new (roomId : Uuid) (now : Instant) : VoiceChannel :=
  turn {
    now, await := .event, idle := none, oneshot := none, spawned := [], voice := []
    forwarder := { connections := ∅, clientIdToSrcId := ∅, tasks := [], roomId } }

end VoiceChannel

end Voices.VoiceServer
