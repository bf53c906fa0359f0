import Voices.Semantics.Broadcast
import Voices.VoiceServer.Crypto

/-!
# The voice task of one client

`channel/connection.rs`: a task spawned for each opened connection. It waits
for the client's address and is then peered: it decrypts the client's voice
into the broadcast of the channel, encrypts what the others say for its own
client, answers pings and obeys its control queue. Each branch of the two
`select!` loops is one step of `VoiceConnection.poll`. Time is in milliseconds.
-/

namespace Voices.VoiceServer

open Semantics

abbrev Instant := Nat

/-- What the server relies on from outside: protobuf decoding, the cipher, and
the number of values that the broadcast of a channel keeps. -/
structure Env where
  decode : List UInt8 → Option ClientMessage
  aead : Aead Key Nonce
  slots : Nat

inductive ConnectionState where
  | waiting
  | peered
  | stopped
  deriving DecidableEq

structure InitResponse where
  cryptKey : Key
  sourceId : UInt32
  deriving DecidableEq

inductive ControlRequest where
  | init (clientAddr : SocketAddr)
  | status
  | stop
  deriving DecidableEq

inductive Reply where
  | init (response : InitResponse)
  | status (state : ConnectionState)
  | stop
  deriving DecidableEq

inductive InternalMsg where
  | voice (voice : Voice)
  | ping (ping : Ping)
  deriving DecidableEq

/-- The locals of `peered`. -/
structure Peered where
  addr : SocketAddr
  seq : UInt64
  sent : UInt64
  received : UInt64
  pingDeadline : Instant
  voiceRx : Nat

inductive Phase where
  | waiting (initTimeout : Instant)
  | peered (locals : Peered)
  | ended

/-- A voice task: its two queues, its identity and the loop it is in. -/
structure VoiceConnection where
  msgRx : List InternalMsg
  controlChan : List ControlRequest
  clientId : Uuid
  sourceId : UInt32
  cryptKey : Key
  phase : Phase

/-- What a task lets the outside see: each use of the cipher for sending, and
each datagram it sends. -/
inductive TaskOutput where
  | encrypted (use : Encryption)
  | sent (addr : SocketAddr) (message : ServerMessage)
  deriving DecidableEq

structure Outcome where
  task : VoiceConnection
  reply : Option Reply := none
  voice : Option (UInt32 × Voice) := none
  output : List TaskOutput := []

/-- The branches of the `select!` loops. `sendOk` is what `send_to` yields. -/
inductive Branch where
  | control
  | message (sendOk : Bool)
  | broadcast (sendOk : Bool)
  | deadline

namespace VoiceConnection

/-- `VoiceConnection::IDLE_TIMEOUT`, also the time between two pings that `peered` allows. -/
def idleTimeout : Nat := 15000

def running (c : VoiceConnection) : Bool :=
  match c.phase with
  | .ended => false
  | _ => true

/-- The task returns: its receivers are dropped with everything still queued. -/
def finish (c : VoiceConnection) : VoiceConnection :=
  { c with msgRx := [], controlChan := [], phase := .ended }

def initResponse (c : VoiceConnection) : InitResponse := ⟨c.cryptKey, c.sourceId⟩

/-- The lines of `peered` before its loop. -/
def startPeered (c : VoiceConnection) (addr : SocketAddr) (now : Instant)
    (log : List (UInt32 × Voice)) : VoiceConnection :=
  { c with phase := .peered {
      addr, seq := 0, sent := 0, received := 0
      pingDeadline := now + idleTimeout, voiceRx := log.length } }

/-- The loop of `run`. A queue whose senders are dropped yields `None` once it is empty. -/
def run (c : VoiceConnection) (initTimeout now : Instant) (senders : Bool)
    (log : List (UInt32 × Voice)) : Branch → Option Outcome
  | .control =>
    match c.controlChan with
    | .init addr :: rest =>
      some { task := { c.startPeered addr now log with controlChan := rest }
             reply := some (.init c.initResponse) }
    | .stop :: _ => some { task := c.finish, reply := some .stop }
    | .status :: rest =>
      some { task := { c with controlChan := rest }, reply := some (.status .waiting) }
    | [] => if senders then none else some { task := c.finish }
  | .deadline => if initTimeout ≤ now then some { task := c.finish } else none
  | .message _ => none
  | .broadcast _ => none

/-- The loop of `peered`. The task holds a sender of the broadcast itself, so that
`RecvError::Closed` does not occur. -/
def peered (env : Env) (c : VoiceConnection) (p : Peered) (now : Instant) (senders : Bool)
    (log : List (UInt32 × Voice)) : Branch → Option Outcome
  | .message sendOk =>
    match c.msgRx with
    | .voice voice :: rest =>
      match decryptVoice env.aead c.cryptKey voice with
      | none => some { task := c.finish }
      | some payload =>
        some {
          task := { c with
            msgRx := rest
            phase := .peered { p with received := p.received + 1, seq := voice.sequence } }
          voice := some (c.sourceId, { voice with payload }) }
    | .ping ping :: rest =>
      if sendOk then
        some {
          task := { c with
            msgRx := rest
            phase := .peered { p with pingDeadline := now + idleTimeout } }
          output := [.sent p.addr (.pong { seq := ping.seq, sent := p.sent, received := p.received })] }
      else some { task := c.finish }
    | [] => if senders then none else some { task := c.finish }
  | .broadcast sendOk =>
    match Broadcast.recv env.slots log p.voiceRx with
    | .empty => none
    | .lagged next => some { task := { c with phase := .peered { p with voiceRx := next } } }
    | .item (rxPktId, voice) next =>
      if c.sourceId = rxPktId then
        some { task := { c with phase := .peered { p with voiceRx := next } } }
      else
        match voice.encrypt env.aead c.cryptKey with
        | none => some { task := c.finish }
        | some use =>
          if sendOk then
            some {
              task := { c with phase := .peered { p with voiceRx := next, sent := p.sent + 1 } }
              output := [.encrypted use, .sent p.addr (.voice { voice with payload := use.cipher })] }
          else some { task := c.finish, output := [.encrypted use] }
  | .deadline => if p.pingDeadline ≤ now then some { task := c.finish } else none
  | .control =>
    match c.controlChan with
    | .init _ :: rest =>
      some { task := { c with controlChan := rest }, reply := some (.init c.initResponse) }
    | .status :: rest =>
      some { task := { c with controlChan := rest }, reply := some (.status .peered) }
    | .stop :: _ => some { task := c.finish, reply := some .stop }
    | [] => if senders then none else some { task := c.finish }

def poll (env : Env) (c : VoiceConnection) (now : Instant) (senders : Bool)
    (log : List (UInt32 × Voice)) (branch : Branch) : Option Outcome :=
  match c.phase with
  | .waiting initTimeout => c.run initTimeout now senders log branch
  | .peered p => c.peered env p now senders log branch
  | .ended => none

end VoiceConnection

end Voices.VoiceServer
