import Voices.Client.Session
import Voices.Gateway.Conversation
import Voices.Semantics.Pipe

/-!
# A client and its session

The two ends of a control connection: `async_main_` of the client, the session of the gateway,
and between them a pipe in each direction. A pipe may be cut at any time. Each end reads what
the other sent when it comes to it, and everything else happens to them in any order. The base 64
of a key is a parameter that parses what it displays.
-/

namespace Voices.Control

open VoiceServer VoiceInstance Semantics Client
open Gateway.Conversation (ServerSession VoiceHandle Suspended isUpdate)
open Gateway (isUnspecified)

/-- `dead` says that the receiver of what the client sends is gone. -/
structure Link where
  client : ClientSession
  dead : Bool
  server : ServerSession
  up : Pipe WsProto.ClientEvent
  down : Pipe WsProto.ServerEvent

/-- What the ends do, with the events that they read. -/
inductive Output where
  | client (output : ClientOutput)
  | server (event : WsProto.ServerEvent)
  | clientRead (event : WsProto.ServerEvent)
  | serverRead (event : WsProto.ClientEvent)

/-- The step begins with a read. -/
def reading {α : Type} (output : Output) (next : α × List Output) : α × List Output :=
  (next.1, output :: next.2)

/-- `clientNext` and `serverNext` are the reads of the two ends, and `client` and `server` what else
happens to them. -/
inductive Event where
  | client (event : ClientSession.Event)
  | clientNext
  | receiverGone
  | server (event : Gateway.Conversation.Event)
  | serverNext (sessionId : Uuid)
  | cutUp (n : Nat)
  | cutDown (n : Nat)

def isClientNext : ClientSession.Event → Bool
  | .nextEvent _ => true
  | _ => false

def isServerNext : Gateway.Conversation.Event → Bool
  | .handshake _ _ => true
  | .client _ => true
  | _ => false

/-- The session reads in `await_handshake` and everywhere else. -/
def serverRead (s : ServerSession) (sessionId : Uuid) (event : Option WsProto.ClientEvent) :
    Gateway.Conversation.Event :=
  match s.suspended with
  | .awaitHandshake => .handshake event sessionId
  | _ => .client event

namespace Link

def new (userId : Uuid) (name : String) (channelId : Uuid) : Link :=
  { client := .new userId name channelId, dead := false, server := .new, up := .new, down := .new }

def clientMoved (l : Link) (next : ClientSession × List ClientOutput) : Link × List Output :=
  ({ l with client := next.1, up := l.up.push (next.2.filterMap ClientOutput.sent?) }, next.2.map .client)

def serverMoved (l : Link) (next : ServerSession × List WsProto.ServerEvent) : Link × List Output :=
  ({ l with server := next.1, down := l.down.push next.2 }, next.2.map .server)

def step (base64 : TextForm Key) (l : Link) : Event → Option (Link × List Output)
  | .client e =>
    if isClientNext e then none else (ClientSession.step base64 l.dead l.client e).map l.clientMoved
  | .clientNext =>
    match l.down.items with
    | event :: items =>
      (ClientSession.step base64 l.dead l.client (.nextEvent (some event))).map fun next =>
        reading (.clientRead event) ({ l with down := { l.down with items } }.clientMoved next)
    | [] =>
      if l.down.closed then (ClientSession.step base64 l.dead l.client (.nextEvent none)).map l.clientMoved
      else none
  | .receiverGone => some ({ l with dead := true }, [])
  | .server e => if isServerNext e then none else (l.server.step base64.display e).map l.serverMoved
  | .serverNext sessionId =>
    match l.up.items with
    | event :: items =>
      (l.server.step base64.display (serverRead l.server sessionId (some event))).map fun next =>
        reading (.serverRead event) ({ l with up := { l.up with items } }.serverMoved next)
    | [] =>
      if l.up.closed then (l.server.step base64.display (serverRead l.server sessionId none)).map l.serverMoved
      else none
  | .cutUp n => some ({ l with up := l.up.cut n }, [])
  | .cutDown n => some ({ l with down := l.down.cut n }, [])

end Link

/-- The key that the voice host issues with this step of the session. -/
def issuedKey : Gateway.Conversation.Event → Option Key
  | .establishedSession (.ok data) => some data.cryptKey
  | _ => none

def issued : Event → Option Key
  | .server e => issuedKey e
  | _ => none

/-- The messages that the client waits for where it is suspended. -/
def clientExpects : ClientSuspended → WsProto.ServerEvent → Bool
  | .awaitInitialized, .init _ => true
  | .awaitVoiceUdp, .udpAnnounce _ => true
  | .awaitVoiceUdp, .joinError _ => true
  | .awaitReady, .ready _ => true
  | .select _ _, .disconnected => true
  | .select _ _, event => isUpdate event
  | _, _ => false

def serverReads : Suspended → Bool
  | .awaitHandshake => true
  | .select => true
  | .awaitClientUdp _ _ _ => true
  | _ => false

/-- In its `select!`, a session waits for a join while it has no voice connection, and for a leave. -/
def serverExpects (s : ServerSession) : WsProto.ClientEvent → Bool
  | .init _ => s.suspended = .awaitHandshake
  | .join _ => s.suspended = .select ∧ s.voice = none
  | .leave => s.suspended = .select
  | .udpAnnounce _ =>
    match s.suspended with
    | .awaitClientUdp _ _ _ => true
    | _ => false
  | _ => false

/-- What an end reads is what it waits for. -/
def Welcome (l : Link) : Event → Prop
  | .clientNext => ∀ event items, l.down.items = event :: items →
      ClientSession.isReceiving l.client.suspended = true →
        clientExpects l.client.suspended event = true
  | .serverNext _ => ∀ event items, l.up.items = event :: items →
      serverReads l.server.suspended = true → serverExpects l.server event = true
  | _ => True

/-- The calls of `initialize_voice_connection` before the announcement. -/
def isOpening : Suspended → Bool
  | .getOrInit _ => true
  | .openConnection _ => true
  | .reassignVoice _ => true
  | .reopenConnection _ => true
  | .join _ _ _ => true
  | .listMembers _ _ _ => true
  | _ => false

/-- The session is in one of these calls, for this channel. -/
def opens (channelId : Uuid) : Suspended → Prop
  | .getOrInit id => id = channelId
  | .openConnection id => id = channelId
  | .reassignVoice id => id = channelId
  | .reopenConnection id => id = channelId
  | .join id _ _ => id = channelId
  | .listMembers id _ _ => id = channelId
  | _ => False

/-- What a client in a voice connection is told from then on. -/
inductive Updates : List WsProto.ServerEvent → Prop where
  | live {updates : List WsProto.ServerEvent} (hUpdates : ∀ u ∈ updates, isUpdate u = true) :
      Updates updates
  | finished {updates : List WsProto.ServerEvent} (hUpdates : ∀ u ∈ updates, isUpdate u = true) :
      Updates (updates ++ [.disconnected])

/-- What is on its way to a client that is suspended there, whatever becomes of the session. -/
inductive Expects (c : ClientSession) : List WsProto.ServerEvent → Prop where
  | nothing : Expects c []
  | init (hClient : c.suspended = .awaitInitialized) (initialized : WsProto.Initialized) :
      Expects c [.init initialized]
  | announce (hClient : c.suspended = .awaitVoiceUdp) (announce : WsProto.ServerAnnounce) :
      Expects c [.udpAnnounce announce]
  | refused (hClient : c.suspended = .awaitVoiceUdp) :
      Expects c [.joinError { roomId := c.channelId }]
  | ready (hClient : c.suspended = .awaitReady) (ready : WsProto.Ready)
      {rest : List WsProto.ServerEvent} (hRest : Updates rest) : Expects c (.ready ready :: rest)
  | starting {ready : WsProto.Ready} {key : Key} (hClient : c.suspended = .udpRun ready key)
      {rest : List WsProto.ServerEvent} (hRest : Updates rest) : Expects c rest
  | talking {srcId : UInt32} {key : Key} (hClient : c.suspended = .select srcId key)
      {rest : List WsProto.ServerEvent} (hRest : Updates rest) : Expects c rest

/-- What is on its way to a session that is suspended there, whatever becomes of its client. -/
inductive Awaits (s : ServerSession) : List WsProto.ClientEvent → Prop where
  | nothing : Awaits s []
  | init (hServer : s.suspended = .awaitHandshake) (init : WsProto.Init) : Awaits s [.init init]
  | join (hServer : s.suspended = .select) (hVoice : s.voice = none) (join : WsProto.Join) :
      Awaits s [.join join]
  | udpAnnounce {channelId : Uuid} {sourceId : UInt32} {present : List Gateway.ClientInfo}
      (hServer : s.suspended = .awaitClientUdp channelId sourceId present)
      (announce : WsProto.ClientAnnounce) : Awaits s [.udpAnnounce announce]
  | leave (hServer : s.suspended = .select) : Awaits s [.leave]

/-- The voice connection of the client, as the session has it, with what the client will be told. -/
inductive Rest (c : ClientSession) (s : ServerSession) (sourceId : UInt32) :
    List WsProto.ServerEvent → Prop where
  | live (hVoice : s.voice = some { clientId := c.userId, channelId := c.channelId, sourceId })
      {updates : List WsProto.ServerEvent} (hUpdates : ∀ u ∈ updates, isUpdate u = true) :
      Rest c s sourceId updates
  | finished (hVoice : s.voice = none) {updates : List WsProto.ServerEvent}
      (hUpdates : ∀ u ∈ updates, isUpdate u = true) : Rest c s sourceId (updates ++ [.disconnected])

/-- How far the client and its session have come together, with the keys that were issued and what
the pipes would carry if they were never cut. -/
inductive Joint (base64 : TextForm Key) (c : ClientSession) (s : ServerSession) :
    List Key → List WsProto.ClientEvent → List WsProto.ServerEvent → Prop where
  | connecting (hClient : c.suspended = .connect) (hServer : s.suspended = .awaitHandshake)
      (hVoice : s.voice = none) : Joint base64 c s [] [] []
  | greeting (hClient : c.suspended = .awaitInitialized) (hServer : s.suspended = .awaitHandshake)
      (hVoice : s.voice = none) : Joint base64 c s [] [.init { userId := c.userId, name := c.name }] []
  | greeted (hClient : c.suspended = .awaitInitialized) (hServer : s.suspended = .select)
      (hVoice : s.voice = none) (hId : s.clientId = c.userId) (initialized : WsProto.Initialized) :
      Joint base64 c s [] [] [.init initialized]
  | joining (hClient : c.suspended = .awaitVoiceUdp) (hServer : s.suspended = .select)
      (hVoice : s.voice = none) (hId : s.clientId = c.userId) :
      Joint base64 c s [] [.join { channelId := c.channelId }] []
  | opening (hClient : c.suspended = .awaitVoiceUdp) (hServer : opens c.channelId s.suspended)
      (hVoice : s.voice = none) (hId : s.clientId = c.userId) : Joint base64 c s [] [] []
  | refused (hClient : c.suspended = .awaitVoiceUdp) (hServer : s.suspended = .select)
      (hVoice : s.voice = none) : Joint base64 c s [] [] [.joinError { roomId := c.channelId }]
  | announced (hClient : c.suspended = .awaitVoiceUdp) {present : List Gateway.ClientInfo}
      {announce : WsProto.ServerAnnounce}
      (hServer : s.suspended = .awaitClientUdp c.channelId announce.sourceId present)
      (hVoice : s.voice = none) (hId : s.clientId = c.userId) :
      Joint base64 c s [] [] [.udpAnnounce announce]
  | discovering {sourceId : UInt32}
      (hClient : (∃ announce, c.suspended = .udpSetup announce ∧ announce.sourceId = sourceId) ∨
        ∃ attempt, c.suspended = .discoverIp sourceId attempt)
      {present : List Gateway.ClientInfo}
      (hServer : s.suspended = .awaitClientUdp c.channelId sourceId present)
      (hVoice : s.voice = none) (hId : s.clientId = c.userId) : Joint base64 c s [] [] []
  | answering (hClient : c.suspended = .awaitReady) {sourceId : UInt32}
      {present : List Gateway.ClientInfo}
      (hServer : s.suspended = .awaitClientUdp c.channelId sourceId present)
      (hVoice : s.voice = none) (hId : s.clientId = c.userId) (announce : WsProto.ClientAnnounce) :
      Joint base64 c s [] [.udpAnnounce announce] []
  | establishing (hClient : c.suspended = .awaitReady) {request : EstablishSession}
      {sourceId : UInt32} {present : List Gateway.ClientInfo}
      (hServer : s.suspended = .establishSession request sourceId present)
      (hChannel : request.channelId = c.channelId)
      (hVoice : s.voice = none) (hId : s.clientId = c.userId) : Joint base64 c s [] [] []
  | accepted (hClient : c.suspended = .awaitReady) (hServer : s.suspended = .select)
      {ready : WsProto.Ready} {key : Key} (hKey : ready.cryptKey = base64.display key)
      {rest : List WsProto.ServerEvent} (hRest : Rest c s ready.srcId rest) :
      Joint base64 c s [key] [] (.ready ready :: rest)
  | starting {ready : WsProto.Ready} {key : Key} (hClient : c.suspended = .udpRun ready key)
      (hServer : s.suspended = .select) {rest : List WsProto.ServerEvent}
      (hRest : Rest c s ready.srcId rest) : Joint base64 c s [key] [] rest
  | talking {srcId : UInt32} {key : Key} (hClient : c.suspended = .select srcId key)
      (hServer : s.suspended = .select) {rest : List WsProto.ServerEvent}
      (hRest : Rest c s srcId rest) : Joint base64 c s [key] [] rest

def isDone : ClientSuspended → Bool
  | .stop => true
  | .ended _ => true
  | _ => false

/-- One end may be done, and the other goes on alone. -/
inductive Agreed (base64 : TextForm Key) (c : ClientSession) (s : ServerSession) (keys : List Key)
    (up : List WsProto.ClientEvent) (down : List WsProto.ServerEvent) : Prop where
  | both (hJoint : Joint base64 c s keys up down)
  | clientDone (hDone : isDone c.suspended = true) (hAwaits : s.suspended = .ended ∨ Awaits s up)
  | serverDone (hEnded : s.suspended = .ended) (hExpects : Expects c down)

end Voices.Control
