import Voices.Control.Stack

/-!
# The turns of the websocket tasks

What the queues of the tasks and the wires hold of a direction is the content of one pipe, and a turn
of a task moves an event along this pipe, answers or drops a keepalive, or ends the task. Neither end
puts a keepalive into its queue.
-/

namespace Voices.Control

open VoiceServer Semantics Client
open Gateway.Conversation (ServerSession)
open Gateway (Message Sending)

universe u

/-- The pipe of a direction: what the receiving task has forwarded, what is on the wire, and what the
sending task has not sent yet. -/
def pipe {α : Type u} (dropped ended senderEnded : Bool) (forward transit back : List α) : Pipe α :=
  if dropped then { items := [], closed := true }
  else if ended then { items := forward, closed := true }
  else if senderEnded then { items := forward ++ transit, closed := true }
  else { items := forward ++ transit ++ back, closed := false }

section Pipes

variable {α : Type u} {dropped ended senderEnded : Bool} {forward transit back : List α} {a : α}

theorem pipe_push (items : List α) :
    (pipe dropped ended false forward transit back).push items =
      pipe dropped ended false forward transit (back ++ items) := by
  cases dropped <;> cases ended <;> simp [pipe, Pipe.push]

theorem pipe_sent :
    pipe dropped ended false forward (transit ++ [a]) back =
      pipe dropped ended false forward transit (a :: back) := by
  cases dropped <;> cases ended <;> simp [pipe]

theorem pipe_forwarded :
    pipe dropped false senderEnded (forward ++ [a]) transit back =
      pipe dropped false senderEnded forward (a :: transit) back := by
  cases dropped <;> cases senderEnded <;> simp [pipe]

theorem pipe_end (transit transit' : List α) :
    pipe dropped true senderEnded forward transit' back =
      (pipe dropped false senderEnded forward transit back).cut forward.length := by
  cases dropped <;> cases senderEnded <;> simp [pipe, Pipe.cut]

theorem pipe_senderEnd :
    pipe dropped ended true forward transit back =
      (pipe dropped ended false forward transit back).cut (forward.length + transit.length) := by
  have hTake : (forward ++ transit ++ back).take (forward.length + transit.length) = forward ++ transit := by
    rw [← List.length_append, List.take_left]
  cases dropped <;> cases ended <;> simp_all [pipe, Pipe.cut]

theorem pipe_drop :
    pipe true ended senderEnded [] transit back =
      (pipe dropped ended senderEnded forward transit back).cut 0 := by
  simp [pipe, Pipe.cut]

theorem pipe_pop (h : dropped = false) :
    pipe dropped ended senderEnded (a :: forward) transit back =
      { pipe dropped ended senderEnded forward transit back with
        items := a :: (pipe dropped ended senderEnded forward transit back).items } := by
  subst h
  cases ended <;> cases senderEnded <;> simp [pipe]

theorem pipe_ended_nil :
    pipe dropped true senderEnded [] transit back = { items := [], closed := true } := by
  cases dropped <;> rfl

end Pipes

section Turns

variable {fs : Forms} {t t' : Gateway.ControlStreamPriv} {c c' : WsProto.ControlStreamPriv}

def isClose : Message → Bool
  | .close _ => true
  | _ => false

/-- What a turn of the task of the gateway does. -/
inductive GatewayTurn (fs : Forms) (t : Gateway.ControlStreamPriv) :
    Gateway.ControlStreamPriv.Event → Gateway.ControlStreamPriv → List WsProto.ServerEvent → Prop where
  | ended (e : Gateway.ControlStreamPriv.Event)
      (result : Except Gateway.PrivControlStreamError Unit) :
      GatewayTurn fs t e { t with result := some result } []
  | sent (sending : Sending) {event : WsProto.ServerEvent} {back : List WsProto.ServerEvent}
      (hBack : t.back = event :: back) : GatewayTurn fs t (.back sending) { t with back } [event]
  | idle (sending : Sending) : GatewayTurn fs t (.back sending) t []
  | answered {message : Message} {sending : Sending} {keepalive : WsProto.Keepalive}
      (hEvent : fromSlice fs.client message.bytes = some (.keepalive keepalive))
      (hFrame : isClose message = false) :
      GatewayTurn fs t (.ws (some (.ok message)) sending) { t with last := t.now } [.keepalive keepalive]
  | forwarded {message : Message} {sending : Sending} {event : WsProto.ClientEvent}
      (hEvent : fromSlice fs.client message.bytes = some event)
      (hOther : ∀ keepalive, event ≠ .keepalive keepalive)
      (hFrame : isClose message = false) :
      GatewayTurn fs t (.ws (some (.ok message)) sending)
        { t with forward := t.forward ++ [event], last := t.now } []

theorem GatewayTurn.of_eq {e : Gateway.ControlStreamPriv.Event}
    {result next : Gateway.ControlStreamPriv × List WsProto.ServerEvent}
    (h : GatewayTurn fs t e result.1 result.2) (hEq : some result = some next) :
    GatewayTurn fs t e next.1 next.2 := by
  cases hEq
  exact h

theorem gatewayTurn_of_message {message : Message} {sending : Sending}
    {next : Gateway.ControlStreamPriv × List WsProto.ServerEvent}
    (hStep : t.handleIncomingMessage (fromSlice fs.client) message sending = some next) :
    GatewayTurn fs t (.ws (some (.ok message)) sending) next.1 next.2 := by
  cases message with
  | close reason => exact GatewayTurn.of_eq (.ended _ _) hStep
  | text data | binary data | ping data | pong data =>
    simp only [Gateway.ControlStreamPriv.handleIncomingMessage, Message.bytes] at hStep
    split at hStep
    · exact GatewayTurn.of_eq (.ended _ _) hStep
    · rename_i hEvent
      cases sending with
      | ok =>
        refine GatewayTurn.of_eq ?_ hStep
        exact .answered hEvent rfl
      | error | elapsed => exact GatewayTurn.of_eq (.ended _ _) hStep
    · rename_i event hOther hEvent
      split at hStep
      · exact GatewayTurn.of_eq (.ended _ _) hStep
      · rw [Option.ite_none_right_eq_some] at hStep
        refine GatewayTurn.of_eq ?_ hStep.2
        exact .forwarded hEvent (fun keepalive hEq => hOther keepalive hEq) rfl

theorem gatewayTurn_of_step {e : Gateway.ControlStreamPriv.Event} (hTurn : e.isTurn = true)
    {next : Gateway.ControlStreamPriv × List WsProto.ServerEvent}
    (hStep : t.step (fromSlice fs.client) e = some next) :
    t.result = none ∧ GatewayTurn fs t e next.1 next.2 := by
  have hRunning : t.result = none ∧ t.turn (fromSlice fs.client) e = some next := by
    cases e with
    | ws | back | deadline =>
      simp only [Gateway.ControlStreamPriv.step, Option.ite_none_right_eq_some,
        Option.isNone_iff_eq_none] at hStep
      exact hStep
    | tick | queue | next | drop => cases hTurn
  refine ⟨hRunning.1, ?_⟩
  have hNext := hRunning.2
  cases e with
  | tick | queue | next | drop => cases hTurn
  | ws item sending =>
    cases item with
    | none => exact GatewayTurn.of_eq (.ended _ _) hNext
    | some received =>
      cases received with
      | error => exact GatewayTurn.of_eq (.ended _ _) hNext
      | ok message => exact gatewayTurn_of_message hNext
  | back sending =>
    simp only [Gateway.ControlStreamPriv.turn] at hNext
    split at hNext
    · rename_i event back hBack
      cases sending with
      | ok => exact GatewayTurn.of_eq (.sent _ hBack) hNext
      | error | elapsed => exact GatewayTurn.of_eq (.ended _ _) hNext
    · rw [Option.ite_none_right_eq_some] at hNext
      exact GatewayTurn.of_eq (.idle sending) hNext.2
  | deadline =>
    simp only [Gateway.ControlStreamPriv.turn, Option.ite_none_right_eq_some] at hNext
    exact GatewayTurn.of_eq (.ended _ _) hNext.2

/-- What a turn of the task of the client does. -/
inductive ClientTurn (fs : Forms) (t : WsProto.ControlStreamPriv) :
    WsProto.ControlStreamPriv.Event → WsProto.ControlStreamPriv → List WsProto.ClientEvent → Prop where
  | ended (e : WsProto.ControlStreamPriv.Event) (result : Except WsProto.PrivControlStreamError Unit) :
      ClientTurn fs t e { t with result := some result } []
  | sent (sending : Sending) {event : WsProto.ClientEvent} {back : List WsProto.ClientEvent}
      (hBack : t.back = event :: back) :
      ClientTurn fs t (.back sending) { t with back, last := t.now } [event]
  | kept (sentAt : UInt64) (sending : Sending) :
      ClientTurn fs t (.deadline sentAt sending) { t with last := t.now } [.keepalive { sentAt }]
  | answered {message : Message} {sending : Sending} {keepalive : WsProto.Keepalive}
      (hEvent : fromSlice fs.server message.bytes = some (.keepalive keepalive))
      (hFrame : isClose message = false) : ClientTurn fs t (.ws (some (.ok message)) sending) t []
  | forwarded {message : Message} {sending : Sending} {event : WsProto.ServerEvent}
      (hEvent : fromSlice fs.server message.bytes = some event)
      (hOther : ∀ keepalive, event ≠ .keepalive keepalive)
      (hFrame : isClose message = false) :
      ClientTurn fs t (.ws (some (.ok message)) sending) { t with forward := t.forward ++ [event] } []

theorem ClientTurn.of_eq {e : WsProto.ControlStreamPriv.Event}
    {result next : WsProto.ControlStreamPriv × List WsProto.ClientEvent}
    (h : ClientTurn fs c e result.1 result.2) (hEq : some result = some next) :
    ClientTurn fs c e next.1 next.2 := by
  cases hEq
  exact h

theorem clientTurn_close (e : WsProto.ControlStreamPriv.Event) (sending : Sending) :
    ClientTurn fs c e (c.close sending) [] := by
  cases sending <;> exact .ended e _

theorem clientTurn_of_message {message : Message} {sending : Sending}
    {next : WsProto.ControlStreamPriv × List WsProto.ClientEvent}
    (hStep : c.message (fromSlice fs.server) message sending = some next) :
    ClientTurn fs c (.ws (some (.ok message)) sending) next.1 next.2 := by
  cases message with
  | close reason => exact ClientTurn.of_eq (clientTurn_close _ sending) hStep
  | text data | binary data | ping data | pong data =>
    simp only [WsProto.ControlStreamPriv.message, Message.bytes] at hStep
    split at hStep
    · exact ClientTurn.of_eq (.ended _ _) hStep
    · rename_i hEvent
      refine ClientTurn.of_eq ?_ hStep
      exact .answered hEvent rfl
    · rename_i event hOther hEvent
      split at hStep
      · exact ClientTurn.of_eq (.ended _ _) hStep
      · rw [Option.ite_none_right_eq_some] at hStep
        refine ClientTurn.of_eq ?_ hStep.2
        exact .forwarded hEvent (fun keepalive hEq => hOther keepalive hEq) rfl

theorem clientTurn_of_step {e : WsProto.ControlStreamPriv.Event} (hTurn : e.isTurn = true)
    {next : WsProto.ControlStreamPriv × List WsProto.ClientEvent}
    (hStep : c.step (fromSlice fs.server) e = some next) :
    c.result = none ∧ ClientTurn fs c e next.1 next.2 := by
  have hRunning : c.result = none ∧ c.turn (fromSlice fs.server) e = some next := by
    cases e with
    | ws | back | stopped | deadline =>
      simp only [WsProto.ControlStreamPriv.step, Option.ite_none_right_eq_some,
        Option.isNone_iff_eq_none] at hStep
      exact hStep
    | tick | queue | next | stop | drop => cases hTurn
  refine ⟨hRunning.1, ?_⟩
  have hNext := hRunning.2
  cases e with
  | tick | queue | next | stop | drop => cases hTurn
  | ws item sending =>
    cases item with
    | none => exact ClientTurn.of_eq (.ended _ _) hNext
    | some received =>
      cases received with
      | error => exact ClientTurn.of_eq (.ended _ _) hNext
      | ok message => exact clientTurn_of_message hNext
  | back sending =>
    simp only [WsProto.ControlStreamPriv.turn] at hNext
    split at hNext
    · rename_i event back hBack
      cases sending with
      | ok => exact ClientTurn.of_eq (.sent _ hBack) hNext
      | error | elapsed => exact ClientTurn.of_eq (.ended _ _) hNext
    · rw [Option.ite_none_right_eq_some] at hNext
      exact ClientTurn.of_eq (clientTurn_close _ sending) hNext.2
  | stopped sending =>
    simp only [WsProto.ControlStreamPriv.turn, Option.ite_none_right_eq_some] at hNext
    exact ClientTurn.of_eq (clientTurn_close _ sending) hNext.2
  | deadline sentAt sending =>
    simp only [WsProto.ControlStreamPriv.turn, Option.ite_none_right_eq_some] at hNext
    cases sending with
    | ok => exact ClientTurn.of_eq (.kept sentAt _) hNext.2
    | error | elapsed => exact ClientTurn.of_eq (.ended _ _) hNext.2

end Turns

section Messages

def isClientMessage : WsProto.ClientEvent → Bool
  | .keepalive _ => false
  | _ => true

def isServerMessage : WsProto.ServerEvent → Bool
  | .keepalive _ => false
  | _ => true

/-- No session tells its client a keepalive, and `dead` is not its to change. -/
structure Speaks (s : ServerSession) (result : ServerSession × List WsProto.ServerEvent) : Prop where
  messages : ∀ m ∈ result.2, isServerMessage m = true
  dead : result.1.dead = s.dead

variable {base64 : TextForm Key} {s next : ServerSession}

theorem speaks_quiet (hDead : next.dead = s.dead) : Speaks s (next, []) := ⟨nofun, hDead⟩

theorem speaks_send {event : WsProto.ServerEvent} (hEvent : isServerMessage event = true)
    (hDead : next.dead = s.dead) : Speaks s (s.send next event) := by
  rw [ServerSession.send]
  split
  · exact speaks_quiet rfl
  · refine ⟨fun m hMem => ?_, hDead⟩
    rwa [List.mem_singleton.mp hMem]

theorem speaks_stopVoice : Speaks s s.stopVoice := by
  refine ⟨fun m hMem => ?_, rfl⟩
  rw [ServerSession.stopVoice] at hMem
  split at hMem
  · rw [List.mem_singleton.mp hMem]
    rfl
  · cases hMem

theorem Speaks.of_eq {result : ServerSession × List WsProto.ServerEvent} {s' : ServerSession}
    {told : List WsProto.ServerEvent} (h : Speaks s result) (hEq : some result = some (s', told)) :
    Speaks s (s', told) := by
  cases Option.some.inj hEq
  exact h

theorem speaks_handleEvent (event : WsProto.ClientEvent) : Speaks s (s.handleEvent event) := by
  cases event with
  | join => exact ⟨speaks_stopVoice.messages, rfl⟩
  | keepalive => exact speaks_quiet rfl
  | init | udpAnnounce | leave | disconnect => exact speaks_stopVoice

theorem speaks_chanEvent (event : Gateway.ChannelEvent) : Speaks s (s.chanEvent event) := by
  unfold ServerSession.chanEvent
  split
  · rename_i message hMessage
    have hUpdate := ServerSession.isUpdate_chanMessage hMessage
    refine speaks_send ?_ rfl
    cases message <;> first | rfl | cases hUpdate
  · exact speaks_quiet rfl

theorem speaks_step {e : Gateway.Conversation.Event} (hAlive : Stack.isReceiverGone e = false)
    {s' : ServerSession} {told : List WsProto.ServerEvent} (hStep : s.step base64.display e = some (s', told)) :
    Speaks s (s', told) := by
  cases e with
  | receiverGone => cases hAlive
  | handshake event sessionId =>
    simp only [ServerSession.step] at hStep
    split at hStep
    · refine Speaks.of_eq ?_ hStep
      unfold ServerSession.initialized
      split
      · exact speaks_send rfl rfl
      · exact speaks_quiet rfl
    · cases hStep
  | client event =>
    simp only [ServerSession.step] at hStep
    split at hStep
    · refine Speaks.of_eq ?_ hStep
      cases event with
      | some event => exact speaks_handleEvent event
      | none => exact ⟨speaks_stopVoice.messages, rfl⟩
    · refine Speaks.of_eq (speaks_quiet ?_) hStep
      unfold ServerSession.clientUdp
      split
      · split <;> rfl
      · rfl
    · cases hStep
  | statusEnded =>
    simp only [ServerSession.step] at hStep
    split at hStep
    · refine Speaks.of_eq ?_ hStep
      exact speaks_send rfl rfl
    · cases hStep
  | chanEvent event =>
    simp only [ServerSession.step] at hStep
    split at hStep
    · exact (speaks_chanEvent event).of_eq hStep
    · cases hStep
  | gotChannel result =>
    simp only [ServerSession.step] at hStep
    split at hStep
    · refine Speaks.of_eq ?_ hStep
      unfold ServerSession.gotChannel
      split
      · exact speaks_quiet rfl
      · exact speaks_send rfl rfl
      · exact speaks_quiet rfl
    · cases hStep
  | openedConnection result =>
    simp only [ServerSession.step] at hStep
    split at hStep
    · refine Speaks.of_eq (speaks_quiet ?_) hStep
      unfold ServerSession.openedConnection
      split <;> rfl
    · refine Speaks.of_eq (speaks_quiet ?_) hStep
      unfold ServerSession.reopenedConnection
      split <;> rfl
    · cases hStep
  | reassigned ok | joined ok =>
    simp only [ServerSession.step] at hStep
    split at hStep
    · refine Speaks.of_eq (speaks_quiet ?_) hStep
      split <;> rfl
    · cases hStep
  | listedMembers result =>
    simp only [ServerSession.step] at hStep
    split at hStep
    · refine Speaks.of_eq ?_ hStep
      unfold ServerSession.listedMembers
      split
      · exact speaks_send rfl rfl
      · exact speaks_quiet rfl
    · cases hStep
  | establishedSession result =>
    simp only [ServerSession.step] at hStep
    split at hStep
    · refine Speaks.of_eq ?_ hStep
      unfold ServerSession.establishedSession
      split
      · exact speaks_send rfl rfl
      · exact speaks_quiet rfl
    · cases hStep

/-- No client sends a keepalive of its own. -/
def Sends (out : List ClientOutput) : Prop :=
  ∀ m ∈ out.filterMap ClientOutput.sent?, isClientMessage m = true

variable {c : ClientSession} {out : List ClientOutput}

theorem sends_nil : Sends [] := List.forall_mem_nil _

theorem sends_send {dead : Bool} {next : ClientSuspended} {event : WsProto.ClientEvent}
    (hEvent : isClientMessage event = true) : Sends (c.send dead next event).2 := by
  rw [ClientSession.send]
  split
  · exact sends_nil
  · intro m hMem
    rwa [List.mem_singleton.mp hMem]

theorem sends_attempt (sourceId : UInt32) (attempt : Nat) : Sends (c.attempt sourceId attempt).2 := by
  rw [ClientSession.attempt]
  split <;> exact sends_nil

theorem sends_ready (ready : WsProto.Ready) : Sends (c.ready base64 ready).2 := by
  unfold ClientSession.ready
  split
  · split <;> exact sends_nil
  · exact sends_nil

theorem Sends.of_eq {result : ClientSession × List ClientOutput} {c' : ClientSession} (h : Sends result.2)
    (hEq : some result = some (c', out)) : Sends out := by
  cases Option.some.inj hEq
  exact h

theorem sends_step {dead : Bool} {e : ClientSession.Event} {c' : ClientSession}
    (hStep : ClientSession.step base64 dead c e = some (c', out)) : Sends out := by
  cases e with
  | connected ok =>
    simp only [ClientSession.step] at hStep
    split at hStep
    · refine Sends.of_eq ?_ hStep
      split
      · exact sends_send rfl
      · exact sends_nil
    · cases hStep
  | nextEvent event =>
    cases event with
    | none =>
      simp only [ClientSession.step] at hStep
      split at hStep
      · refine Sends.of_eq ?_ hStep
        exact sends_nil
      · cases hStep
    | some event =>
      simp only [ClientSession.step, ClientSession.nextEvent] at hStep
      split at hStep
      · split at hStep
        · exact Sends.of_eq (sends_send rfl) hStep
        · refine Sends.of_eq ?_ hStep
          exact sends_nil
      · split at hStep
        · refine Sends.of_eq ?_ hStep
          exact sends_nil
        · refine Sends.of_eq ?_ hStep
          exact sends_nil
      · split at hStep
        · exact Sends.of_eq (sends_ready _) hStep
        · refine Sends.of_eq ?_ hStep
          exact sends_nil
      · refine Sends.of_eq ?_ hStep
        cases event <;> exact sends_nil
      · cases hStep
  | boundUdp ok =>
    simp only [ClientSession.step] at hStep
    split at hStep
    · refine Sends.of_eq ?_ hStep
      split
      · exact sends_attempt _ _
      · exact sends_nil
    · cases hStep
  | discoveredIp result =>
    simp only [ClientSession.step] at hStep
    split at hStep
    · split at hStep
      · exact Sends.of_eq (sends_send rfl) hStep
      · exact Sends.of_eq (sends_attempt _ _) hStep
    · cases hStep
  | ranUdp ok =>
    simp only [ClientSession.step] at hStep
    split at hStep
    · refine Sends.of_eq ?_ hStep
      split
      · rw [Sends, ClientSession.ranUdp, filterMap_sent_voice]
        exact sends_nil
      · exact sends_nil
    · cases hStep
  | ctrlC =>
    simp only [ClientSession.step] at hStep
    split at hStep
    · exact Sends.of_eq (sends_send rfl) hStep
    · cases hStep
  | stopped ok =>
    simp only [ClientSession.step] at hStep
    split at hStep
    · refine Sends.of_eq ?_ hStep
      exact sends_nil
    · cases hStep

end Messages

end Voices.Control
