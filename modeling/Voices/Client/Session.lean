import Voices.Client.UdpRx
import Voices.Semantics.TextForm
import Voices.WsProto.Messages

/-!
# The session of a client

`async_main_` of `main.rs` with the `ControlStream` of `ws-proto`: the client shakes hands,
joins the channel that its user has chosen, discovers its external address, and then follows
what its gateway tells it until its user stops it.
-/

namespace Voices.Client

open VoiceServer Semantics Udp

inductive ControlStreamError where
  | deadReceiver
  | streamEnd
  | unexpectedMessage (expected : String) (got : WsProto.ServerEvent)
  | shutdownError
  deriving DecidableEq

inductive SessionError where
  | connect
  | control (error : ControlStreamError)
  | udpSetup
  | failedIpDisco
  | cryptKey
  | udpRun
  | voiceDisconnected
  deriving DecidableEq

/-- Where `async_main_` is suspended, at the call that has the name. -/
inductive ClientSuspended where
  | connect
  | awaitInitialized
  | awaitVoiceUdp
  | udpSetup (announce : WsProto.ServerAnnounce)
  | discoverIp (sourceId : UInt32) (attempt : Nat)
  | awaitReady
  | udpRun (ready : WsProto.Ready) (key : Key)
  | select (srcId : UInt32) (key : Key)
  | stop
  | ended (result : Except SessionError Unit)

structure ClientSession where
  userId : Uuid
  name : String
  channelId : Uuid
  suspended : ClientSuspended

inductive ClientOutput where
  | sent (event : WsProto.ClientEvent)
  | voice (event : VoiceEvent)

def ClientOutput.sent? : ClientOutput → Option WsProto.ClientEvent
  | sent event => some event
  | voice _ => none

namespace ClientSession

/-- `nextEvent` is what `next_event` yields, with `none` for the end of the stream. The others are the
results of the calls, and `ctrlC` is the signal of the user. -/
inductive Event where
  | connected (ok : Bool)
  | nextEvent (event : Option WsProto.ServerEvent)
  | boundUdp (ok : Bool)
  | discoveredIp (result : Option SocketAddr)
  | ranUdp (ok : Bool)
  | ctrlC
  | stopped (ok : Bool)

def new (userId : Uuid) (name : String) (channelId : Uuid) : ClientSession :=
  { userId, name, channelId, suspended := .connect }

def suspend (s : ClientSession) (suspended : ClientSuspended) : ClientSession := { s with suspended }

def fail (s : ClientSession) (error : SessionError) : ClientSession × List ClientOutput :=
  (s.suspend (.ended (.error error)), [])

/-- `dead` says that the websocket task, which receives what is sent, is gone. -/
def send (s : ClientSession) (dead : Bool) (next : ClientSuspended) (event : WsProto.ClientEvent) :
    ClientSession × List ClientOutput :=
  if dead then s.fail (.control .deadReceiver) else (s.suspend next, [.sent event])

def unexpected (s : ClientSession) (expected : String) (got : WsProto.ServerEvent) :
    ClientSession × List ClientOutput :=
  s.fail (.control (.unexpectedMessage expected got))

/-- The loop around `discover_ip`. -/
def attempt (s : ClientSession) (sourceId : UInt32) (attempt : Nat) : ClientSession × List ClientOutput :=
  if attempt = 5 then s.fail .failedIpDisco else (s.suspend (.discoverIp sourceId (attempt + 1)), [])

/-- `base64` is the text of the key, of which `new_from_slice` wants 32 bytes. -/
def ready (base64 : TextForm Key) (s : ClientSession) (ready : WsProto.Ready) :
    ClientSession × List ClientOutput :=
  match base64.parse ready.cryptKey with
  | some key => if key.length = 32 then (s.suspend (.udpRun ready key), []) else s.fail .cryptKey
  | none => s.fail .cryptKey

/-- Who is present is told to the player, but for the client itself. -/
def ranUdp (s : ClientSession) (ready : WsProto.Ready) (key : Key) : ClientSession × List ClientOutput :=
  (s.suspend (.select ready.srcId key),
    (ready.present.filter (·.sourceId != ready.srcId)).map fun user => .voice (.alreadyPresent user.sourceId))

/-- A message in the loop of `async_main_`. -/
def handle (s : ClientSession) : WsProto.ServerEvent → ClientSession × List ClientOutput
  | .keepalive _ => (s, [])
  | .init _ => (s, [])
  | .ready _ => (s, [])
  | .udpAnnounce _ => (s, [])
  | .joinError _ => (s.suspend .stop, [])
  | .joined joined => (s, [.voice (.joined joined.sourceId)])
  | .left left => (s, [.voice (.left left.sourceId)])
  | .disconnected => s.fail .voiceDisconnected

def nextEvent (base64 : TextForm Key) (s : ClientSession) (dead : Bool) (event : WsProto.ServerEvent) :
    Option (ClientSession × List ClientOutput) :=
  match s.suspended with
  | .awaitInitialized =>
    match event with
    | .init _ => some (s.send dead .awaitVoiceUdp (.join { channelId := s.channelId }))
    | event => some (s.unexpected "Initialized" event)
  | .awaitVoiceUdp =>
    match event with
    | .udpAnnounce announce => some (s.suspend (.udpSetup announce), [])
    | event => some (s.unexpected "Announce" event)
  | .awaitReady =>
    match event with
    | .ready ready => some (s.ready base64 ready)
    | event => some (s.unexpected "Ready" event)
  | .select _ _ => some (s.handle event)
  | _ => none

def isReceiving : ClientSuspended → Bool
  | .awaitInitialized => true
  | .awaitVoiceUdp => true
  | .awaitReady => true
  | .select _ _ => true
  | _ => false

def step (base64 : TextForm Key) (dead : Bool) (s : ClientSession) :
    Event → Option (ClientSession × List ClientOutput)
  | .connected ok =>
    match s.suspended with
    | .connect =>
      some (if ok then s.send dead .awaitInitialized (.init { userId := s.userId, name := s.name })
        else s.fail .connect)
    | _ => none
  | .nextEvent (some event) => s.nextEvent base64 dead event
  | .nextEvent none => if isReceiving s.suspended then some (s.fail (.control .streamEnd)) else none
  | .boundUdp ok =>
    match s.suspended with
    | .udpSetup announce => some (if ok then s.attempt announce.sourceId 0 else s.fail .udpSetup)
    | _ => none
  | .discoveredIp result =>
    match s.suspended with
    | .discoverIp sourceId attempt =>
      match result with
      | some addr => some (s.send dead .awaitReady (.udpAnnounce { ip := addr.ip, port := addr.port }))
      | none => some (s.attempt sourceId attempt)
    | _ => none
  | .ranUdp ok =>
    match s.suspended with
    | .udpRun ready key => some (if ok then s.ranUdp ready key else s.fail .udpRun)
    | _ => none
  | .ctrlC =>
    match s.suspended with
    | .select _ _ => some (s.send dead .stop .leave)
    | _ => none
  | .stopped ok =>
    match s.suspended with
    | .stop =>
      some (s.suspend (.ended (if ok then .ok () else .error (.control .shutdownError))), [])
    | _ => none

end ClientSession

end Voices.Client
