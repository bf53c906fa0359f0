import Voices.Gateway.ControlStream

/-!
# The websocket task of a client

`client.rs` of `ws-proto`: the counterpart of the task of the gateway. It sends what the client
queues and a keepalive after each 2 s without a message of its own, and forwards what comes from
the gateway, but for the answers to its keepalives. It stops when it is asked to, and when the
client has dropped its `ControlStream`.
-/

namespace Voices.WsProto

open Semantics VoiceServer
open Gateway (Message Sending)

inductive PrivControlStreamError where
  | sendTimeout
  | streamClosed
  | streamError
  | deserError (msg : Message)
  | noReceiver
  deriving DecidableEq

/-- The task with its queues. `stopping` says that a stop is requested, and `dropped` that the client
has dropped its `ControlStream`, which holds the other ends of the queues. -/
structure ControlStreamPriv where
  back : List ClientEvent
  forward : List ServerEvent
  stopping : Bool
  dropped : Bool
  last : Instant
  now : Instant
  result : Option (Except PrivControlStreamError Unit)

namespace ControlStreamPriv

def keepaliveInterval : Nat := 2000

def capacity : Nat := 10

/-- `queue`, `next`, `stop` and `drop` are steps of the client, and `ws`, `back`, `stopped` and `deadline`
the branches of the loop. The keepalive has the time of the system in milliseconds. -/
inductive Event where
  | tick (millis : Nat)
  | queue (event : ClientEvent)
  | next
  | stop
  | drop
  | ws (next : Option (Except Unit Message)) (sending : Sending)
  | back (sending : Sending)
  | stopped (sending : Sending)
  | deadline (sentAt : UInt64) (sending : Sending)

def Event.isTurn : Event → Bool
  | .ws _ _ => true
  | .back _ => true
  | .stopped _ => true
  | .deadline _ _ => true
  | _ => false

def new : ControlStreamPriv :=
  { back := [], forward := [], stopping := false, dropped := false, last := 0, now := 0, result := none }

def finish (s : ControlStreamPriv) (result : Except PrivControlStreamError Unit) : ControlStreamPriv :=
  { s with result := some result }

/-- `close` ends the loop, whether the frame could be sent or not. -/
def close (s : ControlStreamPriv) : Sending → ControlStreamPriv
  | .ok => s.finish (.ok ())
  | .error => s.finish (.error .streamError)
  | .elapsed => s.finish (.error .sendTimeout)

/-- A frame that cannot be sent ends the loop; after one that can, the keepalive is due anew. -/
def sendJson (s next : ControlStreamPriv) (event : ClientEvent) :
    Sending → ControlStreamPriv × List ClientEvent
  | .ok => ({ next with last := s.now }, [event])
  | .error => (s.finish (.error .streamError), [])
  | .elapsed => (s.finish (.error .sendTimeout), [])

/-- A message of the gateway. It waits while the queue of the client is full. -/
def message (fromSlice : List UInt8 → Option ServerEvent) (s : ControlStreamPriv) (msg : Message)
    (sending : Sending) : Option (ControlStreamPriv × List ClientEvent) :=
  match msg with
  | .close _ => some (s.close sending, [])
  | msg =>
    match fromSlice msg.bytes with
    | none => some (s.finish (.error (.deserError msg)), [])
    | some (.keepalive _) => some (s, [])
    | some event =>
      if s.dropped then some (s.finish (.error .noReceiver), [])
      else if s.forward.length < capacity then some ({ s with forward := s.forward ++ [event] }, [])
      else none

/-- One branch of the loop; the outputs are the events that the gateway is sent. -/
def turn (fromSlice : List UInt8 → Option ServerEvent) (s : ControlStreamPriv) :
    Event → Option (ControlStreamPriv × List ClientEvent)
  | .ws none _ => some (s.finish (.error .streamClosed), [])
  | .ws (some (.error _)) _ => some (s.finish (.error .streamError), [])
  | .ws (some (.ok msg)) sending => s.message fromSlice msg sending
  | .back sending =>
    match s.back with
    | event :: back => some (s.sendJson { s with back } event sending)
    | [] => if s.dropped then some (s.close sending, []) else none
  | .stopped sending => if s.stopping ∨ s.dropped then some (s.close sending, []) else none
  | .deadline sentAt sending =>
    if s.last + keepaliveInterval ≤ s.now then some (s.sendJson s (.keepalive { sentAt }) sending)
    else none
  | _ => none

def step (fromSlice : List UInt8 → Option ServerEvent) (s : ControlStreamPriv) :
    Event → Option (ControlStreamPriv × List ClientEvent)
  | .tick millis => some ({ s with now := s.now + millis }, [])
  | .queue event =>
    if s.dropped = false ∧ s.result = none ∧ s.back.length < capacity then
      some ({ s with back := s.back ++ [event] }, [])
    else none
  | .next =>
    match s.dropped, s.forward with
    | false, _ :: forward => some ({ s with forward }, [])
    | _, _ => none
  | .stop => if s.dropped then none else some ({ s with stopping := true }, [])
  | .drop => if s.dropped then none else some ({ s with dropped := true, forward := [] }, [])
  | e => if s.result.isNone then s.turn fromSlice e else none

end ControlStreamPriv

end Voices.WsProto
