import Voices.Control.Turns

/-!
# The stack refines the link

A task that moves an event along leaves the pipe of its direction as it is, and the end of a task
cuts the pipes. So every run of the whole stack is a run of the two ends with their pipes.
-/

namespace Voices.Control

open VoiceServer Semantics Client
open Gateway.Conversation (ServerSession)
open Gateway (Message Sending)

/-- The two ends of a stack with the pipes between them, for the events that are on the wires. -/
def Stack.link (s : Stack) (ups : List WsProto.ClientEvent) (downs : List WsProto.ServerEvent) : Link where
  client := s.client
  dead := s.clientTask.result.isSome
  server := s.session
  up := pipe s.gatewayTask.dropped s.gatewayTask.result.isSome s.clientTask.result.isSome
    s.gatewayTask.forward (ups.filter isClientMessage) s.clientTask.back
  down := pipe s.clientTask.dropped s.clientTask.result.isSome s.gatewayTask.result.isSome
    s.clientTask.forward (downs.filter isServerMessage) s.gatewayTask.back

structure Represents (fs : Forms) (s : Stack) (l : Link) : Prop where
  wires : ∃ ups downs, s.wireUp = ups.map (frame fs.client) ∧ s.wireDown = downs.map (frame fs.server) ∧
    l = s.link ups downs
  backUp : ∀ m ∈ s.clientTask.back, isClientMessage m = true
  backDown : ∀ m ∈ s.gatewayTask.back, isServerMessage m = true
  serverEnded : s.gatewayTask.dropped = true → s.server.suspended = .ended
  clientEnded : s.clientTask.dropped = true → ∃ result, s.client.suspended = .ended result

theorem represents_new (fs : Forms) (userId : Uuid) (name : String) (channelId : Uuid) :
    Represents fs (Stack.new userId name channelId) (Link.new userId name channelId) :=
  ⟨⟨[], [], rfl, rfl, rfl⟩, nofun, nofun, nofun, nofun⟩

section Steps

variable {fs : Forms} {s s' : Stack} {l : Link} {o : List Output}

/-- A step of the stack is a run of the link. -/
def Simulates (fs : Forms) (l : Link) (next : Stack × List Output) : Prop :=
  ∃ es l', Machine.run (Link.step fs.key) l es = some (l', next.2) ∧ Represents fs next.1 l'

theorem clientQueue_eq {task next : WsProto.ControlStreamPriv} {events : List WsProto.ClientEvent}
    (h : Stack.ClientTask.queueAll fs task events = some next) :
    next = { task with back := task.back ++ events } ∧ (events ≠ [] → task.result = none) := by
  induction events generalizing task with
  | nil =>
    cases h
    refine ⟨?_, fun hNe => absurd rfl hNe⟩
    rw [List.append_nil]
  | cons event rest ih =>
    obtain ⟨⟨task', out⟩, hStep, hRest⟩ := Option.bind_eq_some_iff.mp h
    simp only [WsProto.ControlStreamPriv.step, Option.ite_none_right_eq_some] at hStep
    obtain ⟨⟨_, hResult, _⟩, hEq⟩ := hStep
    cases hEq
    obtain ⟨rfl, _⟩ := ih hRest
    exact ⟨by rw [List.append_assoc, List.singleton_append], fun _ => hResult⟩

theorem gatewayQueue_eq {task next : Gateway.ControlStreamPriv} {events : List WsProto.ServerEvent}
    (h : Stack.GatewayTask.queueAll fs task events = some next) :
    next = { task with back := task.back ++ events } ∧ (events ≠ [] → task.result = none) := by
  induction events generalizing task with
  | nil =>
    cases h
    refine ⟨?_, fun hNe => absurd rfl hNe⟩
    rw [List.append_nil]
  | cons event rest ih =>
    obtain ⟨⟨task', out⟩, hStep, hRest⟩ := Option.bind_eq_some_iff.mp h
    simp only [Gateway.ControlStreamPriv.step, Option.ite_none_right_eq_some] at hStep
    obtain ⟨⟨_, hResult, _⟩, hEq⟩ := hStep
    cases hEq
    obtain ⟨rfl, _⟩ := ih hRest
    exact ⟨by rw [List.append_assoc, List.singleton_append], fun _ => hResult⟩

theorem push_nil {α : Type} (p : Pipe α) : p.push [] = p := by
  rw [Pipe.push]
  split
  · rfl
  · rw [List.append_nil]

/-- What an end puts into the queue of its task goes into the pipe. -/
theorem pipe_queued {α ε : Type} {dropped ended : Bool} {forward transit back events : List α}
    {result : Option (Except ε Unit)} (hRunning : events ≠ [] → result = none) :
    (pipe dropped ended result.isSome forward transit back).push events =
      pipe dropped ended result.isSome forward transit (back ++ events) := by
  cases events with
  | nil => rw [push_nil, List.append_nil]
  | cons event rest =>
    rw [hRunning (List.cons_ne_nil _ _)]
    exact pipe_push _

theorem clientRunning_of_step {dead : Bool} {c c' : ClientSession} {e : ClientSession.Event}
    {out : List ClientOutput} (hStep : ClientSession.step fs.key dead c e = some (c', out))
    (hEnded : ∃ result, c.suspended = .ended result) : False := by
  obtain ⟨result, hEnded⟩ := hEnded
  cases e with
  | nextEvent event => cases event <;> simp [ClientSession.step, ClientSession.nextEvent, hEnded,
      ClientSession.isReceiving] at hStep
  | connected | boundUdp | discoveredIp | ranUdp | ctrlC | stopped =>
    simp [ClientSession.step, hEnded] at hStep

theorem serverRunning_of_step {server server' : ServerSession} {e : Gateway.Conversation.Event}
    {told : List WsProto.ServerEvent} (hAlive : Stack.isReceiverGone e = false)
    (hStep : server.step fs.key.display e = some (server', told)) : server.suspended ≠ .ended := by
  intro hEnded
  cases e with
  | receiverGone => cases hAlive
  | handshake | client | statusEnded | chanEvent | gotChannel | openedConnection | reassigned | joined
  | listedMembers | establishedSession => simp [ServerSession.step, hEnded] at hStep

theorem mem_append_isMessage {α : Type} {isMessage : α → Bool} {back events : List α}
    (hBack : ∀ m ∈ back, isMessage m = true) (hEvents : ∀ m ∈ events, isMessage m = true) :
    ∀ m ∈ back ++ events, isMessage m = true := by
  intro m hMem
  rcases List.mem_append.mp hMem with hOld | hNew
  · exact hBack m hOld
  · exact hEvents m hNew

/-- The client moves: what it sends is queued, and in the pipe. -/
theorem represents_clientMoved {ups : List WsProto.ClientEvent} {downs : List WsProto.ServerEvent}
    (h : Represents fs s (s.link ups downs)) (hUps : s.wireUp = ups.map (frame fs.client))
    (hDowns : s.wireDown = downs.map (frame fs.server)) {dead : Bool} {e : ClientSession.Event}
    {c c' : ClientSession} {out : List ClientOutput} (hClient : s.client = c)
    (hStep : ClientSession.step fs.key dead c e = some (c', out)) {next : Stack × List Output}
    (hMoved : s.clientMoved fs (c', out) = some next) :
    (s.link ups downs).clientMoved (c', out) = (next.1.link ups downs, next.2) ∧
      Represents fs next.1 (next.1.link ups downs) := by
  obtain ⟨task, hQueue, hEq⟩ := Option.map_eq_some_iff.mp hMoved
  obtain ⟨rfl, hRunning⟩ := clientQueue_eq hQueue
  cases hEq
  refine ⟨?_, ⟨ups, downs, hUps, hDowns, rfl⟩, ?_, h.backDown, h.serverEnded, ?_⟩
  · simp only [Link.clientMoved, Stack.link, Stack.session]
    rw [pipe_queued hRunning]
  · exact mem_append_isMessage h.backUp (sends_step hStep)
  · exact fun hDropped => (clientRunning_of_step hStep (hClient ▸ h.clientEnded hDropped)).elim

/-- The session moves: what it tells its client is queued, and in the pipe. -/
theorem represents_serverMoved {ups : List WsProto.ClientEvent} {downs : List WsProto.ServerEvent}
    (h : Represents fs s (s.link ups downs)) (hUps : s.wireUp = ups.map (frame fs.client))
    (hDowns : s.wireDown = downs.map (frame fs.server)) {e : Gateway.Conversation.Event}
    (hAlive : Stack.isReceiverGone e = false) {server' : ServerSession} {told : List WsProto.ServerEvent}
    (hStep : s.session.step fs.key.display e = some (server', told)) {next : Stack × List Output}
    (hMoved : s.serverMoved fs (server', told) = some next) :
    (s.link ups downs).serverMoved (server', told) = (next.1.link ups downs, next.2) ∧
      Represents fs next.1 (next.1.link ups downs) := by
  obtain ⟨task, hQueue, hEq⟩ := Option.map_eq_some_iff.mp hMoved
  obtain ⟨rfl, hRunning⟩ := gatewayQueue_eq hQueue
  cases hEq
  have hSpeaks := speaks_step hAlive hStep
  have hSession : { server' with dead := s.gatewayTask.result.isSome } = server' := by
    have hDead : server'.dead = s.gatewayTask.result.isSome := hSpeaks.dead
    rw [← hDead]
  refine ⟨?_, ⟨ups, downs, hUps, hDowns, rfl⟩, h.backUp, ?_, ?_, h.clientEnded⟩
  · simp only [Link.serverMoved, Stack.link, Stack.session, hSession]
    rw [pipe_queued hRunning]
  · exact mem_append_isMessage h.backDown hSpeaks.messages
  · intro hDropped
    have hEnded : s.session.suspended = .ended := h.serverEnded hDropped
    exact absurd hEnded (serverRunning_of_step hAlive hStep)

theorem simulates_client {e : ClientSession.Event} (h : Represents fs s l) {next : Stack × List Output}
    (hStep : s.step fs (.client e) = some next) : Simulates fs l next := by
  obtain ⟨ups, downs, hUps, hDowns, rfl⟩ := h.wires
  simp only [Stack.step, Option.ite_none_left_eq_some] at hStep
  obtain ⟨hLocal, hNext⟩ := hStep
  obtain ⟨⟨c', out⟩, hClient, hMoved⟩ := Option.bind_eq_some_iff.mp hNext
  obtain ⟨hLink, hRepresents⟩ := represents_clientMoved h hUps hDowns rfl hClient hMoved
  refine ⟨[.client e], _, Machine.run_singleton_iff.mpr ?_, hRepresents⟩
  have hSame : ClientSession.step fs.key (s.link ups downs).dead (s.link ups downs).client e = some (c', out) :=
    hClient
  rw [Link.step, if_neg hLocal, hSame, Option.map_some, hLink]

theorem simulates_server {e : Gateway.Conversation.Event} (h : Represents fs s l)
    {next : Stack × List Output} (hStep : s.step fs (.server e) = some next) : Simulates fs l next := by
  obtain ⟨ups, downs, hUps, hDowns, rfl⟩ := h.wires
  simp only [Stack.step, Option.ite_none_left_eq_some, not_or, Bool.not_eq_true] at hStep
  obtain ⟨⟨hLocal, hAlive⟩, hNext⟩ := hStep
  obtain ⟨⟨server', told⟩, hServer, hMoved⟩ := Option.bind_eq_some_iff.mp hNext
  obtain ⟨hLink, hRepresents⟩ := represents_serverMoved h hUps hDowns hAlive hServer hMoved
  refine ⟨[.server e], _, Machine.run_singleton_iff.mpr ?_, hRepresents⟩
  have hSame : (s.link ups downs).server.step fs.key.display e = some (server', told) := hServer
  rw [Link.step, hLocal, hSame, Option.map_some, hLink]
  rfl

theorem simulates_clientNext (h : Represents fs s l) {next : Stack × List Output}
    (hStep : s.step fs .clientNext = some next) : Simulates fs l next := by
  obtain ⟨ups, downs, hUps, hDowns, rfl⟩ := h.wires
  simp only [Stack.step] at hStep
  split at hStep
  · rename_i event forward hForward
    obtain ⟨⟨c', out⟩, hClient, hRead⟩ := Option.bind_eq_some_iff.mp hStep
    obtain ⟨moved, hMoved, rfl⟩ := Option.map_eq_some_iff.mp hRead
    have hKept : s.clientTask.dropped = false := by
      rw [Bool.eq_false_iff]
      exact fun hDropped => clientRunning_of_step hClient (h.clientEnded hDropped)
    let popped : Stack := { s with clientTask := { s.clientTask with forward } }
    have hPopped : Represents fs popped (popped.link ups downs) :=
      ⟨⟨ups, downs, hUps, hDowns, rfl⟩, h.backUp, h.backDown, h.serverEnded, h.clientEnded⟩
    obtain ⟨hLink, hRepresents⟩ := represents_clientMoved hPopped hUps hDowns rfl hClient hMoved
    refine ⟨[.clientNext], _, Machine.run_singleton_iff.mpr ?_, hRepresents⟩
    have hDown : (s.link ups downs).down =
        { (popped.link ups downs).down with items := event :: (popped.link ups downs).down.items } := by
      rw [Stack.link, hForward]
      exact pipe_pop hKept
    have hSame : ClientSession.step fs.key (s.link ups downs).dead (s.link ups downs).client
        (.nextEvent (some event)) = some (c', out) := hClient
    simp only [Link.step, hDown, hSame, Option.map_some]
    exact congrArg (fun next => some (reading (.clientRead event) next)) hLink
  · rename_i hForward
    rw [Option.ite_none_right_eq_some] at hStep
    obtain ⟨hEnded, hNext⟩ := hStep
    obtain ⟨⟨c', out⟩, hClient, hMoved⟩ := Option.bind_eq_some_iff.mp hNext
    obtain ⟨hLink, hRepresents⟩ := represents_clientMoved h hUps hDowns rfl hClient hMoved
    refine ⟨[.clientNext], _, Machine.run_singleton_iff.mpr ?_, hRepresents⟩
    have hDown : (s.link ups downs).down = { items := [], closed := true } := by
      rw [Stack.link, hForward, hEnded]
      exact pipe_ended_nil
    have hSame : ClientSession.step fs.key (s.link ups downs).dead (s.link ups downs).client
        (.nextEvent none) = some (c', out) := hClient
    simp only [Link.step, hDown, if_true, hSame, Option.map_some]
    exact congrArg some hLink

theorem simulates_serverNext {sessionId : Uuid} (h : Represents fs s l) {next : Stack × List Output}
    (hStep : s.step fs (.serverNext sessionId) = some next) : Simulates fs l next := by
  obtain ⟨ups, downs, hUps, hDowns, rfl⟩ := h.wires
  have hAlive : ∀ event, Stack.isReceiverGone (serverRead s.server sessionId event) = false := by
    intro event
    rw [serverRead]
    split <;> rfl
  simp only [Stack.step] at hStep
  split at hStep
  · rename_i event forward hForward
    obtain ⟨⟨server', told⟩, hServer, hRead⟩ := Option.bind_eq_some_iff.mp hStep
    obtain ⟨moved, hMoved, rfl⟩ := Option.map_eq_some_iff.mp hRead
    have hKept : s.gatewayTask.dropped = false := by
      rw [Bool.eq_false_iff]
      intro hDropped
      have hEnded : s.session.suspended = .ended := h.serverEnded hDropped
      exact serverRunning_of_step (hAlive _) hServer hEnded
    let popped : Stack := { s with gatewayTask := { s.gatewayTask with forward } }
    have hPopped : Represents fs popped (popped.link ups downs) :=
      ⟨⟨ups, downs, hUps, hDowns, rfl⟩, h.backUp, h.backDown, h.serverEnded, h.clientEnded⟩
    obtain ⟨hLink, hRepresents⟩ :=
      represents_serverMoved hPopped hUps hDowns (hAlive _) hServer hMoved
    refine ⟨[.serverNext sessionId], _, Machine.run_singleton_iff.mpr ?_, hRepresents⟩
    have hUp : (s.link ups downs).up =
        { (popped.link ups downs).up with items := event :: (popped.link ups downs).up.items } := by
      rw [Stack.link, hForward]
      exact pipe_pop hKept
    have hSame : (s.link ups downs).server.step fs.key.display
        (serverRead (s.link ups downs).server sessionId (some event)) = some (server', told) := hServer
    simp only [Link.step, hUp, hSame, Option.map_some]
    exact congrArg (fun next => some (reading (.serverRead event) next)) hLink
  · rename_i hForward
    rw [Option.ite_none_right_eq_some] at hStep
    obtain ⟨hEnded, hNext⟩ := hStep
    obtain ⟨⟨server', told⟩, hServer, hMoved⟩ := Option.bind_eq_some_iff.mp hNext
    obtain ⟨hLink, hRepresents⟩ := represents_serverMoved h hUps hDowns (hAlive _) hServer hMoved
    refine ⟨[.serverNext sessionId], _, Machine.run_singleton_iff.mpr ?_, hRepresents⟩
    have hUp : (s.link ups downs).up = { items := [], closed := true } := by
      rw [Stack.link, hForward, hEnded]
      exact pipe_ended_nil
    have hSame : (s.link ups downs).server.step fs.key.display
        (serverRead (s.link ups downs).server sessionId none) = some (server', told) := hServer
    simp only [Link.step, hUp, if_true, hSame, Option.map_some]
    exact congrArg some hLink

theorem take_frames {α : Type} {form : TextForm α} {events : List α} {item : Option (Except Unit Message)}
    {rest : List Message} (h : Stack.take (events.map (frame form)) item = some rest) :
    ∃ events', rest = events'.map (frame form) ∧
      ∀ message, item = some (.ok message) → isClose message = false →
        ∃ event, events = event :: events' ∧ message = frame form event := by
  unfold Stack.take at h
  split at h
  · cases h
    exact ⟨events, rfl, nofun⟩
  · cases h
    exact ⟨events, rfl, nofun⟩
  · cases h
    refine ⟨events, rfl, fun message hEq hOpen => ?_⟩
    cases hEq
    cases hOpen
  · rename_i message _
    cases events with
    | nil => cases h
    | cons event events =>
      simp only [List.map_cons, Option.ite_none_right_eq_some, Option.some.injEq] at h
      obtain ⟨hFirst, rfl⟩ := h
      refine ⟨events, rfl, fun message' hEq _ => ⟨event, rfl, ?_⟩⟩
      cases hEq
      exact hFirst.symm

/-- What is taken off a wire by a turn that reads, and by one that does not. -/
structure Taken {α : Type} (form : TextForm α) (item : Option (Option (Except Unit Message)))
    (events events' : List α) : Prop where
  read : ∀ message, item = some (some (.ok message)) → isClose message = false →
    ∃ event, events = event :: events' ∧ message = frame form event
  unread : item = none → events' = events

theorem taken_unread {α : Type} {form : TextForm α} {events : List α} : Taken form none events events :=
  ⟨nofun, fun _ => rfl⟩

theorem taken_read {α : Type} {form : TextForm α} {item : Option (Except Unit Message)}
    {events events' : List α}
    (hRead : ∀ message, item = some (.ok message) → isClose message = false →
      ∃ event, events = event :: events' ∧ message = frame form event) :
    Taken form (some item) events events' :=
  ⟨fun message hItem => hRead message (Option.some.inj hItem), nofun⟩

def gatewayItem : Gateway.ControlStreamPriv.Event → Option (Option (Except Unit Message))
  | .ws item _ => some item
  | _ => none

def clientItem : WsProto.ControlStreamPriv.Event → Option (Option (Except Unit Message))
  | .ws item _ => some item
  | _ => none

theorem filter_snoc {α : Type} {isMessage : α → Bool} (events : List α) (event : α) :
    (events ++ [event]).filter isMessage =
      events.filter isMessage ++ if isMessage event then [event] else [] := by
  rw [List.filter_append]
  cases h : isMessage event <;> simp [h]

theorem frames_snoc {α : Type} {form : TextForm α} {wire : List Message} {events : List α}
    (h : wire = events.map (frame form)) (event : α) :
    wire ++ [event].map (frame form) = (events ++ [event]).map (frame form) := by
  rw [List.map_append, h]

theorem run_gatewayEnded (l : Link) (n m : Nat) :
    Machine.run (Link.step fs.key) l [.server .receiverGone, .cutUp n, .cutDown m] =
      some ({ l with server := { l.server with dead := true }, up := l.up.cut n, down := l.down.cut m }, []) := by
  simp [Machine.run, Link.step, Link.serverMoved, isServerNext, ServerSession.step, push_nil]

theorem run_clientEnded (l : Link) (n m : Nat) :
    Machine.run (Link.step fs.key) l [.receiverGone, .cutDown n, .cutUp m] =
      some ({ l with dead := true, down := l.down.cut n, up := l.up.cut m }, []) := rfl

theorem simulates_gatewayTurn {ups ups' : List WsProto.ClientEvent} {downs : List WsProto.ServerEvent}
    (h : Represents fs s (s.link ups downs)) (hDowns : s.wireDown = downs.map (frame fs.server))
    {e : Gateway.ControlStreamPriv.Event} (hTaken : Taken fs.client (gatewayItem e) ups ups')
    (hRunning : s.gatewayTask.result = none) {task : Gateway.ControlStreamPriv}
    {out : List WsProto.ServerEvent} (hTurn : GatewayTurn fs s.gatewayTask e task out) :
    Simulates fs (s.link ups downs)
      ({ s with
        wireUp := ups'.map (frame fs.client)
        gatewayTask := task
        wireDown := s.wireDown ++ out.map (frame fs.server) }, []) := by
  have hNoDowns : s.wireDown ++ [].map (frame fs.server) = downs.map (frame fs.server) := by
    rw [List.map_nil, List.append_nil, hDowns]
  have hResult : s.gatewayTask.result.isSome = false := by rw [hRunning]; rfl
  cases hTurn with
  | ended result =>
    refine ⟨_, _, run_gatewayEnded _ s.gatewayTask.forward.length
      (s.clientTask.forward.length + (downs.filter isServerMessage).length),
      ⟨ups', downs, rfl, hNoDowns, ?_⟩, h.backUp, h.backDown, h.serverEnded, h.clientEnded⟩
    simp only [Stack.link, Stack.session, hResult, Option.isSome_some]
    rw [pipe_end (ups.filter isClientMessage), pipe_senderEnd]
  | @sent sending event back hBack =>
    have hMessage : isServerMessage event = true := h.backDown event (hBack ▸ List.mem_cons_self)
    refine ⟨[], _, rfl, ⟨ups', downs ++ [event], rfl, frames_snoc hDowns event, ?_⟩, h.backUp, ?_, h.serverEnded,
      h.clientEnded⟩
    · rw [hTaken.unread rfl]
      simp only [Stack.link, Stack.session, filter_snoc, hMessage, if_true, hResult, pipe_sent, hBack]
    · exact fun m hMem => h.backDown m (hBack ▸ List.mem_cons_of_mem _ hMem)
  | idle sending =>
    rw [hTaken.unread rfl]
    exact ⟨[], _, rfl, ⟨ups, downs, rfl, hNoDowns, rfl⟩, h.backUp, h.backDown, h.serverEnded,
      h.clientEnded⟩
  | @answered message sending keepalive hEvent hFrame =>
    obtain ⟨event, rfl, rfl⟩ := hTaken.read message rfl hFrame
    rw [fromSlice_frame, Option.some.injEq] at hEvent
    refine ⟨[], _, rfl, ⟨ups', downs ++ [.keepalive keepalive], rfl, frames_snoc hDowns _, ?_⟩, h.backUp, h.backDown,
      h.serverEnded, h.clientEnded⟩
    simp [Stack.link, Stack.session, isServerMessage, hEvent, isClientMessage]
  | @forwarded message sending event hEvent hOther hFrame =>
    obtain ⟨event', rfl, rfl⟩ := hTaken.read message rfl hFrame
    rw [fromSlice_frame, Option.some.injEq] at hEvent
    subst hEvent
    have hMessage : isClientMessage event' = true := by
      cases event' <;> first | rfl | exact absurd rfl (hOther _)
    refine ⟨[], _, rfl, ⟨ups', downs, rfl, hNoDowns, ?_⟩, h.backUp, h.backDown, h.serverEnded,
      h.clientEnded⟩
    simp only [Stack.link, Stack.session, hResult, pipe_forwarded, List.filter_cons, hMessage, if_true]

theorem simulates_clientTurn {ups : List WsProto.ClientEvent} {downs downs' : List WsProto.ServerEvent}
    (h : Represents fs s (s.link ups downs)) (hUps : s.wireUp = ups.map (frame fs.client))
    {e : WsProto.ControlStreamPriv.Event} (hTaken : Taken fs.server (clientItem e) downs downs')
    (hRunning : s.clientTask.result = none) {task : WsProto.ControlStreamPriv}
    {out : List WsProto.ClientEvent} (hTurn : ClientTurn fs s.clientTask e task out) :
    Simulates fs (s.link ups downs)
      ({ s with
        wireDown := downs'.map (frame fs.server)
        clientTask := task
        wireUp := s.wireUp ++ out.map (frame fs.client) }, []) := by
  have hNoUps : s.wireUp ++ [].map (frame fs.client) = ups.map (frame fs.client) := by
    rw [List.map_nil, List.append_nil, hUps]
  have hResult : s.clientTask.result.isSome = false := by rw [hRunning]; rfl
  cases hTurn with
  | ended result =>
    refine ⟨_, _, run_clientEnded _ s.clientTask.forward.length
      (s.gatewayTask.forward.length + (ups.filter isClientMessage).length),
      ⟨ups, downs', hNoUps, rfl, ?_⟩, h.backUp, h.backDown, h.serverEnded, h.clientEnded⟩
    simp only [Stack.link, Stack.session, hResult, Option.isSome_some]
    rw [pipe_end (downs.filter isServerMessage), pipe_senderEnd]
  | @sent sending event back hBack =>
    have hMessage : isClientMessage event = true := h.backUp event (hBack ▸ List.mem_cons_self)
    refine ⟨[], _, rfl, ⟨ups ++ [event], downs', frames_snoc hUps event, rfl, ?_⟩, ?_, h.backDown, h.serverEnded,
      h.clientEnded⟩
    · rw [hTaken.unread rfl]
      simp only [Stack.link, Stack.session, filter_snoc, hMessage, if_true, hResult, pipe_sent, hBack]
    · exact fun m hMem => h.backUp m (hBack ▸ List.mem_cons_of_mem _ hMem)
  | kept sentAt sending =>
    refine ⟨[], _, rfl, ⟨ups ++ [.keepalive { sentAt }], downs', frames_snoc hUps _, rfl, ?_⟩, h.backUp, h.backDown,
      h.serverEnded, h.clientEnded⟩
    rw [hTaken.unread rfl]
    simp [Stack.link, Stack.session, isClientMessage]
  | @answered message sending keepalive hEvent hFrame =>
    obtain ⟨event, rfl, rfl⟩ := hTaken.read message rfl hFrame
    rw [fromSlice_frame, Option.some.injEq] at hEvent
    refine ⟨[], _, rfl, ⟨ups, downs', hNoUps, rfl, ?_⟩, h.backUp, h.backDown, h.serverEnded,
      h.clientEnded⟩
    simp [Stack.link, Stack.session, isServerMessage, hEvent]
  | @forwarded message sending event hEvent hOther hFrame =>
    obtain ⟨event', rfl, rfl⟩ := hTaken.read message rfl hFrame
    rw [fromSlice_frame, Option.some.injEq] at hEvent
    subst hEvent
    have hMessage : isServerMessage event' = true := by
      cases event' <;> first | rfl | exact absurd rfl (hOther _)
    refine ⟨[], _, rfl, ⟨ups, downs', hNoUps, rfl, ?_⟩, h.backUp, h.backDown, h.serverEnded,
      h.clientEnded⟩
    simp only [Stack.link, Stack.session, hResult, pipe_forwarded, List.filter_cons, hMessage, if_true]

theorem simulates_gatewayTask {e : Gateway.ControlStreamPriv.Event} (h : Represents fs s l)
    {next : Stack × List Output} (hStep : s.step fs (.gatewayTask e) = some next) :
    Simulates fs l next := by
  obtain ⟨ups, downs, hUps, hDowns, rfl⟩ := h.wires
  cases e with
  | ws item sending =>
    obtain ⟨rest, hTake, hMoved⟩ := Option.bind_eq_some_iff.mp hStep
    rw [hUps] at hTake
    obtain ⟨ups', rfl, hRead⟩ := take_frames hTake
    obtain ⟨⟨task, out⟩, hTask, hEq⟩ := Option.map_eq_some_iff.mp hMoved
    obtain ⟨hRunning, hTurn⟩ := gatewayTurn_of_step rfl hTask
    cases hEq
    have hTaken : Taken fs.client (gatewayItem (.ws item sending)) ups ups' := taken_read hRead
    exact simulates_gatewayTurn h hDowns hTaken hRunning hTurn
  | back sending =>
    obtain ⟨⟨task, out⟩, hTask, hEq⟩ := Option.map_eq_some_iff.mp hStep
    obtain ⟨hRunning, hTurn⟩ := gatewayTurn_of_step rfl hTask
    cases hEq
    rw [hUps]
    exact simulates_gatewayTurn h hDowns taken_unread hRunning hTurn
  | deadline =>
    obtain ⟨⟨task, out⟩, hTask, hEq⟩ := Option.map_eq_some_iff.mp hStep
    obtain ⟨hRunning, hTurn⟩ := gatewayTurn_of_step rfl hTask
    cases hEq
    rw [hUps]
    exact simulates_gatewayTurn h hDowns taken_unread hRunning hTurn
  | tick | queue | next | drop => cases hStep

theorem simulates_clientTask {e : WsProto.ControlStreamPriv.Event} (h : Represents fs s l)
    {next : Stack × List Output} (hStep : s.step fs (.clientTask e) = some next) :
    Simulates fs l next := by
  obtain ⟨ups, downs, hUps, hDowns, rfl⟩ := h.wires
  cases e with
  | ws item sending =>
    obtain ⟨rest, hTake, hMoved⟩ := Option.bind_eq_some_iff.mp hStep
    rw [hDowns] at hTake
    obtain ⟨downs', rfl, hRead⟩ := take_frames hTake
    obtain ⟨⟨task, out⟩, hTask, hEq⟩ := Option.map_eq_some_iff.mp hMoved
    obtain ⟨hRunning, hTurn⟩ := clientTurn_of_step rfl hTask
    cases hEq
    have hTaken : Taken fs.server (clientItem (.ws item sending)) downs downs' := taken_read hRead
    exact simulates_clientTurn h hUps hTaken hRunning hTurn
  | back | stopped | deadline =>
    obtain ⟨⟨task, out⟩, hTask, hEq⟩ := Option.map_eq_some_iff.mp hStep
    obtain ⟨hRunning, hTurn⟩ := clientTurn_of_step rfl hTask
    cases hEq
    rw [hDowns]
    exact simulates_clientTurn h hUps taken_unread hRunning hTurn
  | tick | queue | next | stop | drop => cases hStep

theorem simulates_step {e : StackEvent} (h : Represents fs s l) {next : Stack × List Output}
    (hStep : s.step fs e = some next) : Simulates fs l next := by
  cases e with
  | client e => exact simulates_client h hStep
  | clientNext => exact simulates_clientNext h hStep
  | clientTask e => exact simulates_clientTask h hStep
  | gatewayTask e => exact simulates_gatewayTask h hStep
  | server e => exact simulates_server h hStep
  | serverNext sessionId => exact simulates_serverNext h hStep
  | tick millis =>
    obtain ⟨ups, downs, hUps, hDowns, rfl⟩ := h.wires
    cases hStep
    exact ⟨[], _, rfl, ⟨ups, downs, hUps, hDowns, rfl⟩, h.backUp, h.backDown, h.serverEnded, h.clientEnded⟩
  | clientStop =>
    obtain ⟨ups, downs, hUps, hDowns, rfl⟩ := h.wires
    simp only [Stack.step] at hStep
    split at hStep
    · obtain ⟨⟨task, out⟩, hTask, hEq⟩ := Option.map_eq_some_iff.mp hStep
      rw [WsProto.ControlStreamPriv.step, Option.ite_none_left_eq_some] at hTask
      cases hTask.2
      cases hEq
      refine ⟨[], _, rfl, ⟨ups, downs, ?_, hDowns, rfl⟩, h.backUp, h.backDown, h.serverEnded, h.clientEnded⟩
      rw [List.map_nil, List.append_nil, hUps]
    · cases hStep
  | clientDrop =>
    obtain ⟨ups, downs, hUps, hDowns, rfl⟩ := h.wires
    simp only [Stack.step] at hStep
    split at hStep
    · rename_i result hEnded
      obtain ⟨⟨task, out⟩, hTask, hEq⟩ := Option.map_eq_some_iff.mp hStep
      rw [WsProto.ControlStreamPriv.step, Option.ite_none_left_eq_some] at hTask
      cases hTask.2
      cases hEq
      refine ⟨[.cutDown 0], _, rfl, ⟨ups, downs, ?_, hDowns, ?_⟩, h.backUp, h.backDown, h.serverEnded,
        fun _ => ⟨result, hEnded⟩⟩
      · rw [List.map_nil, List.append_nil, hUps]
      · simp only [Stack.link, Stack.session]
        rw [← pipe_drop]
    · cases hStep
  | serverDrop =>
    obtain ⟨ups, downs, hUps, hDowns, rfl⟩ := h.wires
    simp only [Stack.step, Option.ite_none_right_eq_some] at hStep
    obtain ⟨hEnded, hMoved⟩ := hStep
    obtain ⟨⟨task, out⟩, hTask, hEq⟩ := Option.map_eq_some_iff.mp hMoved
    rw [Gateway.ControlStreamPriv.step, Option.ite_none_left_eq_some] at hTask
    cases hTask.2
    cases hEq
    refine ⟨[.cutUp 0], _, rfl, ⟨ups, downs, hUps, ?_, ?_⟩, h.backUp, h.backDown, fun _ => hEnded,
      h.clientEnded⟩
    · rw [List.map_nil, List.append_nil, hDowns]
    · simp only [Stack.link, Stack.session]
      rw [← pipe_drop]

end Steps

/-- Every run of the stack, with its queues, its tasks and its wires, is a run of the two ends with
their pipes: an end reads what the other sent, in order and once, until its pipe is cut. -/
theorem stack_refines_link {fs : Forms} {userId channelId : Uuid} {name : String} {es : List StackEvent}
    {s : Stack} {tr : List Output}
    (hRun : Machine.run (Stack.step fs) (Stack.new userId name channelId) es = some (s, tr)) :
    ∃ links l, Machine.run (Link.step fs.key) (Link.new userId name channelId) links = some (l, tr) ∧
      Represents fs s l :=
  Machine.run_of_simulation (R := Represents fs)
    (fun _ _ _ _ _ hR hStep => simulates_step hR hStep)
    (represents_new fs userId name channelId) hRun

/-- The first message of a client comes to its session, and the answer back. -/
def firstMessages : List StackEvent :=
  [.client (.connected true), .clientTask (.back .ok),
    .gatewayTask (.ws (some (.ok (frame texts.client WsProto.firstInit))) .ok), .serverNext 9,
    .gatewayTask (.back .ok),
    .clientTask (.ws (some (.ok (frame texts.server WsProto.firstInitialized))) .ok), .clientNext]

theorem stack_refines_link_of_firstMessages :
    ∃ s tr, Machine.run (Stack.step texts) (Stack.new 1 "a" 7) firstMessages = some (s, tr) ∧
      ∃ links l, Machine.run (Link.step texts.key) (Link.new 1 "a" 7) links = some (l, tr) ∧
        Represents texts s l := by
  have hRun : Machine.run (Stack.step texts) (Stack.new 1 "a" 7) firstMessages = some (_, _) := rfl
  exact ⟨_, _, hRun, stack_refines_link hRun⟩

end Voices.Control
