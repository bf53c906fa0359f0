import Voices.Control.Conformance
import Voices.Semantics.TextForm
import Voices.WsProto.Client
import Voices.WsProto.Texts

/-!
# A client, its session and all between them

The two ends again, now with the queues and the websocket tasks on both sides and the frames on the
wire. The tasks answer and drop keepalives, wait for full queues, and may end at any time; a wire
delivers its frames in order or fails. The JSON texts are a parameter that parses what it displays.
-/

namespace Voices.Control

open VoiceServer Semantics Client
open Gateway.Conversation (ServerSession)
open Gateway (Message Sending)

/-- `to_string` and `from_slice` of the events in each direction, and the base 64 of the key in `Ready`. -/
structure Forms where
  key : TextForm Key
  client : TextForm WsProto.ClientEvent
  server : TextForm WsProto.ServerEvent

def texts : Forms := { key := Base64.standard, client := WsProto.clientText, server := WsProto.serverText }

def frame {α : Type} (form : TextForm α) (event : α) : Message :=
  .text (form.display event).toUTF8.data.toList

def fromSlice {α : Type} (form : TextForm α) (bytes : List UInt8) : Option α :=
  (String.fromUTF8? ⟨bytes.toArray⟩).bind form.parse

theorem fromSlice_frame {α : Type} (form : TextForm α) (event : α) :
    fromSlice form (frame form event).bytes = some event := by
  have hText : String.fromUTF8? (form.display event).toUTF8 = some (form.display event) := by
    rw [String.fromUTF8?, String.toUTF8_eq_toByteArray, dif_pos (form.display event).isValidUTF8]
    rfl
  simp only [frame, Message.bytes, fromSlice, Array.toArray_toList]
  rw [show (⟨(form.display event).toUTF8.data⟩ : ByteArray) = (form.display event).toUTF8 from rfl, hText]
  exact form.parse_display event

structure Stack where
  client : ClientSession
  clientTask : WsProto.ControlStreamPriv
  wireUp : List Message
  wireDown : List Message
  gatewayTask : Gateway.ControlStreamPriv
  server : ServerSession

/-- The steps of the ends as before, and those of the tasks. `clientStop` is the request of `stop`,
and an end that has ended drops its `ControlStream`. -/
inductive StackEvent where
  | tick (millis : Nat)
  | client (event : ClientSession.Event)
  | clientNext
  | clientStop
  | clientDrop
  | clientTask (event : WsProto.ControlStreamPriv.Event)
  | gatewayTask (event : Gateway.ControlStreamPriv.Event)
  | server (event : Gateway.Conversation.Event)
  | serverNext (sessionId : Uuid)
  | serverDrop

namespace Stack

def new (userId : Uuid) (name : String) (channelId : Uuid) : Stack :=
  { client := .new userId name channelId, clientTask := .new, wireUp := [], wireDown := []
    gatewayTask := .new, server := .new }

def ClientTask.queueAll (fs : Forms) (task : WsProto.ControlStreamPriv) :
    List WsProto.ClientEvent → Option WsProto.ControlStreamPriv
  | [] => some task
  | event :: rest =>
    (task.step (fromSlice fs.server) (.queue event)).bind fun next => queueAll fs next.1 rest

def GatewayTask.queueAll (fs : Forms) (task : Gateway.ControlStreamPriv) :
    List WsProto.ServerEvent → Option Gateway.ControlStreamPriv
  | [] => some task
  | event :: rest =>
    (task.step (fromSlice fs.client) (.queue event)).bind fun next => queueAll fs next.1 rest

/-- The client goes on when what it sends fits into the queue of its task. -/
def clientMoved (fs : Forms) (s : Stack) (next : ClientSession × List ClientOutput) :
    Option (Stack × List Output) :=
  (ClientTask.queueAll fs s.clientTask (next.2.filterMap ClientOutput.sent?)).map fun clientTask =>
    ({ s with client := next.1, clientTask }, next.2.map .client)

def serverMoved (fs : Forms) (s : Stack) (next : ServerSession × List WsProto.ServerEvent) :
    Option (Stack × List Output) :=
  (GatewayTask.queueAll fs s.gatewayTask next.2).map fun gatewayTask =>
    ({ s with server := next.1, gatewayTask }, next.2.map .server)

/-- A wire yields its first frame. It may fail or be closed at any time instead. -/
def take (wire : List Message) : Option (Except Unit Message) → Option (List Message)
  | none => some wire
  | some (.error _) => some wire
  | some (.ok (.close _)) => some wire
  | some (.ok message) =>
    match wire with
    | first :: rest => if first = message then some rest else none
    | [] => none

def clientTaskMoved (fs : Forms) (s : Stack) (event : WsProto.ControlStreamPriv.Event) :
    Option (Stack × List Output) :=
  (s.clientTask.step (fromSlice fs.server) event).map fun next =>
    ({ s with clientTask := next.1, wireUp := s.wireUp ++ next.2.map (frame fs.client) }, [])

def gatewayTaskMoved (fs : Forms) (s : Stack) (event : Gateway.ControlStreamPriv.Event) :
    Option (Stack × List Output) :=
  (s.gatewayTask.step (fromSlice fs.client) event).map fun next =>
    ({ s with gatewayTask := next.1, wireDown := s.wireDown ++ next.2.map (frame fs.server) }, [])

def isReceiverGone : Gateway.Conversation.Event → Bool
  | .receiverGone => true
  | _ => false

/-- The session learns of the end of its task when it sends. -/
def session (s : Stack) : ServerSession := { s.server with dead := s.gatewayTask.result.isSome }

def step (fs : Forms) (s : Stack) : StackEvent → Option (Stack × List Output)
  | .tick millis =>
    some ({ s with
      clientTask := { s.clientTask with now := s.clientTask.now + millis }
      gatewayTask := { s.gatewayTask with now := s.gatewayTask.now + millis } }, [])
  | .client e =>
    if isClientNext e then none
    else (ClientSession.step fs.key s.clientTask.result.isSome s.client e).bind (s.clientMoved fs)
  | .clientNext =>
    match s.clientTask.forward with
    | event :: forward =>
      (ClientSession.step fs.key s.clientTask.result.isSome s.client (.nextEvent (some event))).bind fun next =>
        ({ s with clientTask := { s.clientTask with forward } }.clientMoved fs next).map
          (reading (.clientRead event))
    | [] =>
      if s.clientTask.result.isSome then
        (ClientSession.step fs.key s.clientTask.result.isSome s.client (.nextEvent none)).bind (s.clientMoved fs)
      else none
  | .clientStop =>
    match s.client.suspended with
    | .stop => s.clientTaskMoved fs .stop
    | _ => none
  | .clientDrop =>
    match s.client.suspended with
    | .ended _ => s.clientTaskMoved fs .drop
    | _ => none
  | .clientTask e =>
    match e with
    | .ws next sending =>
      (take s.wireDown next).bind fun wireDown => { s with wireDown }.clientTaskMoved fs (.ws next sending)
    | e => if e.isTurn then s.clientTaskMoved fs e else none
  | .gatewayTask e =>
    match e with
    | .ws next sending =>
      (take s.wireUp next).bind fun wireUp => { s with wireUp }.gatewayTaskMoved fs (.ws next sending)
    | e => if e.isTurn then s.gatewayTaskMoved fs e else none
  | .server e =>
    if isServerNext e ∨ isReceiverGone e then none
    else (s.session.step fs.key.display e).bind (s.serverMoved fs)
  | .serverNext sessionId =>
    match s.gatewayTask.forward with
    | event :: forward =>
      (s.session.step fs.key.display (serverRead s.server sessionId (some event))).bind fun next =>
        ({ s with gatewayTask := { s.gatewayTask with forward } }.serverMoved fs next).map
          (reading (.serverRead event))
    | [] =>
      if s.gatewayTask.result.isSome then
        (s.session.step fs.key.display (serverRead s.server sessionId none)).bind (s.serverMoved fs)
      else none
  | .serverDrop => if s.server.suspended = .ended then s.gatewayTaskMoved fs .drop else none

end Stack

end Voices.Control
