import Voices.Control.SessionMoves
import Voices.Semantics.Base64

/-!
# Neither end is taken by surprise

Each end sends only what the other waits for when it comes to read it, whatever else happens in
between and wherever the pipes are cut. When both wait for each other, the voice connection is
established, and they agree on it.
-/

namespace Voices.Control

open VoiceServer VoiceInstance Semantics Client
open Gateway.Conversation (ServerSession VoiceHandle Suspended isUpdate)

variable {base64 : TextForm Key} {keys : List Key} {l l' : Link} {tr o : List Output}

/-- Whatever was cut off the pipes, the two ends agree on what they would carry. -/
def Linked (base64 : TextForm Key) (keys : List Key) (l : Link) : Prop :=
  ∃ up down, l.up.Holds up ∧ l.down.Holds down ∧ Agreed base64 l.client l.server keys up down

theorem linked_new (userId : Uuid) (name : String) (channelId : Uuid) :
    Linked base64 [] (Link.new userId name channelId) :=
  ⟨[], [], Pipe.Holds.new, Pipe.Holds.new, .both (.connecting rfl rfl rfl)⟩

theorem linked_step {e : Event} (h : Linked base64 keys l) (hStep : l.step base64 e = some (l', o)) :
    Linked base64 (keys ++ (issued e).toList) l' := by
  obtain ⟨up, down, hUp, hDown, hAgreed⟩ := h
  cases e with
  | client e =>
    rw [Link.step, Option.ite_none_left_eq_some] at hStep
    obtain ⟨⟨c', out⟩, hNext, hEq⟩ := Option.map_eq_some_iff.mp hStep.2
    cases hEq
    simp only [issued, Option.toList_none, List.append_nil]
    exact ⟨_, down, hUp.push _, hDown, hAgreed.clientStep (Bool.eq_false_iff.mpr hStep.1) hNext⟩
  | clientNext =>
    simp only [issued, Option.toList_none, List.append_nil]
    simp only [Link.step] at hStep
    split at hStep
    · rename_i event items hItems
      obtain ⟨⟨c', out⟩, hNext, hEq⟩ := Option.map_eq_some_iff.mp hStep
      obtain ⟨rest, rfl, hRest⟩ := hDown.pop hItems
      cases hEq
      exact ⟨_, rest, hUp.push _, hRest, hAgreed.clientNext hNext⟩
    · rw [Option.ite_none_right_eq_some] at hStep
      obtain ⟨⟨c', out⟩, hNext, hEq⟩ := Option.map_eq_some_iff.mp hStep.2
      cases hEq
      exact ⟨_, down, hUp.push _, hDown, hAgreed.clientEnd hNext⟩
  | receiverGone =>
    cases hStep
    simp only [issued, Option.toList_none, List.append_nil]
    exact ⟨up, down, hUp, hDown, hAgreed⟩
  | server e =>
    rw [Link.step, Option.ite_none_left_eq_some] at hStep
    obtain ⟨⟨s', told⟩, hNext, hEq⟩ := Option.map_eq_some_iff.mp hStep.2
    cases hEq
    exact ⟨up, _, hUp, hDown.push _, hAgreed.serverStep (Bool.eq_false_iff.mpr hStep.1) hNext⟩
  | serverNext sessionId =>
    simp only [issued, Option.toList_none, List.append_nil]
    simp only [Link.step] at hStep
    split at hStep
    · rename_i event items hItems
      obtain ⟨⟨s', told⟩, hNext, hEq⟩ := Option.map_eq_some_iff.mp hStep
      obtain ⟨rest, rfl, hRest⟩ := hUp.pop hItems
      cases hEq
      exact ⟨rest, _, hRest, hDown.push _, hAgreed.serverNext hNext⟩
    · rw [Option.ite_none_right_eq_some] at hStep
      obtain ⟨⟨s', told⟩, hNext, hEq⟩ := Option.map_eq_some_iff.mp hStep.2
      cases hEq
      exact ⟨up, _, hUp, hDown.push _, hAgreed.serverEnd hNext⟩
  | cutUp n =>
    cases hStep
    simp only [issued, Option.toList_none, List.append_nil]
    exact ⟨up, down, hUp.cut n, hDown, hAgreed⟩
  | cutDown n =>
    cases hStep
    simp only [issued, Option.toList_none, List.append_nil]
    exact ⟨up, down, hUp, hDown.cut n, hAgreed⟩

theorem Linked.welcome (h : Linked base64 keys l) (e : Event) : Welcome l e := by
  obtain ⟨up, down, hUp, hDown, hAgreed⟩ := h
  cases e with
  | clientNext =>
    intro event items hItems hReceiving
    obtain ⟨rest, rfl, _⟩ := hDown.pop hItems
    exact hAgreed.clientExpects hReceiving
  | serverNext sessionId =>
    intro event items hItems hReads
    obtain ⟨rest, rfl, _⟩ := hUp.pop hItems
    exact hAgreed.serverExpects hReads
  | client | receiverGone | server | cutUp | cutDown => trivial

/-- The error of a client that got another message than it expected. -/
def surprise (expected : String) (got : WsProto.ServerEvent) : ClientSuspended :=
  .ended (.error (.control (.unexpectedMessage expected got)))

def isSurprise : ClientSuspended → Bool
  | .ended (.error (.control (.unexpectedMessage _ _))) => true
  | _ => false

/-- A step of a client changes where it is suspended, and does not end it by surprise. -/
def Moves (c : ClientSession) (result : ClientSession × List ClientOutput) : Prop :=
  ∃ next, result.1 = c.suspend next ∧ isSurprise next = false

section Moves

variable {c c' : ClientSession} {out : List ClientOutput}

theorem Moves.of_eq {result : ClientSession × List ClientOutput} (h : Moves c result)
    (hEq : some result = some (c', out)) : ∃ next, c' = c.suspend next ∧ isSurprise next = false := by
  cases Option.some.inj hEq
  exact h

theorem moves_fail {error : SessionError} (hError : isSurprise (.ended (.error error)) = false) :
    Moves c (c.fail error) := ⟨_, rfl, hError⟩

theorem moves_send {dead : Bool} {next : ClientSuspended} {event : WsProto.ClientEvent}
    (hNext : isSurprise next = false) : Moves c (c.send dead next event) := by
  rw [ClientSession.send]
  split
  · exact moves_fail rfl
  · exact ⟨next, rfl, hNext⟩

theorem moves_attempt (sourceId : UInt32) (attempt : Nat) :
    Moves c (c.attempt sourceId attempt) := by
  rw [ClientSession.attempt]
  split
  · exact moves_fail rfl
  · exact ⟨_, rfl, rfl⟩

theorem moves_ready (ready : WsProto.Ready) : Moves c (c.ready base64 ready) := by
  unfold ClientSession.ready
  split
  · split
    · exact ⟨_, rfl, rfl⟩
    · exact moves_fail rfl
  · exact moves_fail rfl

theorem moves_handle {srcId : UInt32} {key : Key} (hClient : c.suspended = .select srcId key)
    (event : WsProto.ServerEvent) : Moves c (c.handle event) := by
  have hStay : c = c.suspend (.select srcId key) := by rw [ClientSession.suspend, ← hClient]
  cases event with
  | joinError => exact ⟨.stop, rfl, rfl⟩
  | disconnected => exact moves_fail rfl
  | keepalive | init | ready | udpAnnounce | joined | left => exact ⟨_, hStay, rfl⟩

theorem step_suspend {dead : Bool} {e : ClientSession.Event} (hLocal : isClientNext e = false)
    (hStep : ClientSession.step base64 dead c e = some (c', out)) :
    ∃ next, c' = c.suspend next ∧ isSurprise next = false := by
  cases e with
  | nextEvent => cases hLocal
  | connected ok =>
    simp only [ClientSession.step] at hStep
    split at hStep
    · refine Moves.of_eq ?_ hStep
      split
      · exact moves_send rfl
      · apply moves_fail
        rfl
    · cases hStep
  | boundUdp ok =>
    simp only [ClientSession.step] at hStep
    split at hStep
    · refine Moves.of_eq ?_ hStep
      split
      · exact moves_attempt _ _
      · apply moves_fail
        rfl
    · cases hStep
  | discoveredIp result =>
    simp only [ClientSession.step] at hStep
    split at hStep
    · split at hStep
      · refine Moves.of_eq ?_ hStep
        apply moves_send
        rfl
      · exact (moves_attempt _ _).of_eq hStep
    · cases hStep
  | ranUdp ok =>
    simp only [ClientSession.step] at hStep
    split at hStep
    · rename_i ready key _
      refine Moves.of_eq ?_ hStep
      split
      · exact ⟨.select ready.srcId key, rfl, rfl⟩
      · apply moves_fail
        rfl
    · cases hStep
  | ctrlC =>
    simp only [ClientSession.step] at hStep
    split at hStep
    · refine Moves.of_eq ?_ hStep
      apply moves_send
      rfl
    · cases hStep
  | stopped ok =>
    simp only [ClientSession.step] at hStep
    split at hStep
    · have hMoves : Moves c (c.suspend (.ended (if ok then .ok () else .error (.control .shutdownError))), []) := by
        refine ⟨_, rfl, ?_⟩
        cases ok <;> rfl
      exact hMoves.of_eq hStep
    · cases hStep

/-- A message that a client expects moves it on, unless its channel was not found. -/
theorem nextEvent_suspend {dead : Bool} {m : WsProto.ServerEvent}
    (hExpected : clientExpects c.suspended m = true)
    (hStep : ClientSession.step base64 dead c (.nextEvent (some m)) = some (c', out)) :
    (∃ next, c' = c.suspend next ∧ isSurprise next = false) ∨
      ∃ error, m = .joinError error ∧ c.suspended = .awaitVoiceUdp ∧
        c' = c.suspend (surprise "Announce" m) := by
  simp only [ClientSession.step, ClientSession.nextEvent] at hStep
  split at hStep
  · rename_i hClient
    rw [hClient] at hExpected
    cases m with
    | init =>
      left
      refine Moves.of_eq ?_ hStep
      apply moves_send
      rfl
    | keepalive | ready | joined | disconnected | left | udpAnnounce | joinError => cases hExpected
  · rename_i hClient
    rw [hClient] at hExpected
    cases m with
    | udpAnnounce announce =>
      left
      refine Moves.of_eq ?_ hStep
      exact ⟨_, rfl, rfl⟩
    | joinError error =>
      cases hStep
      exact .inr ⟨error, rfl, hClient, rfl⟩
    | init | keepalive | ready | joined | disconnected | left => cases hExpected
  · rename_i hClient
    rw [hClient] at hExpected
    cases m with
    | ready ready => exact .inl ((moves_ready ready).of_eq hStep)
    | init | keepalive | joined | disconnected | left | udpAnnounce | joinError => cases hExpected
  · rename_i hClient
    exact .inl ((moves_handle hClient m).of_eq hStep)
  · cases hStep

theorem isReceiving_of_next {dead : Bool} {m : WsProto.ServerEvent}
    (hStep : ClientSession.step base64 dead c (.nextEvent (some m)) = some (c', out)) :
    ClientSession.isReceiving c.suspended = true := by
  simp only [ClientSession.step, ClientSession.nextEvent] at hStep
  split at hStep <;> first | (rename_i hClient; rw [hClient]; rfl) | cases hStep

theorem clientEnd_suspend {dead : Bool}
    (hStep : ClientSession.step base64 dead c (.nextEvent none) = some (c', out)) :
    ∃ next, c' = c.suspend next ∧ isSurprise next = false := by
  simp only [ClientSession.step] at hStep
  split at hStep
  · refine Moves.of_eq ?_ hStep
    apply moves_fail
    rfl
  · cases hStep

end Moves

/-- The one message that a client does not expect and can get: its channel was not found. -/
def OnlyRefused (c : ClientSession) : Prop :=
  ∀ expected got, c.suspended = surprise expected got →
    expected = "Announce" ∧ got = .joinError { roomId := c.channelId }

/-- The state of a run of this client on this channel. -/
structure Underway (base64 : TextForm Key) (userId channelId : Uuid) (keys : List Key) (l : Link) : Prop where
  linked : Linked base64 keys l
  userId_eq : l.client.userId = userId
  channelId_eq : l.client.channelId = channelId
  onlyRefused : OnlyRefused l.client

theorem underway_new (userId : Uuid) (name : String) (channelId : Uuid) :
    Underway base64 userId channelId [] (Link.new userId name channelId) :=
  ⟨linked_new userId name channelId, rfl, rfl, nofun⟩

theorem OnlyRefused.of_suspend {c c' : ClientSession}
    (h : ∃ next, c' = c.suspend next ∧ isSurprise next = false) :
    c'.userId = c.userId ∧ c'.channelId = c.channelId ∧ OnlyRefused c' := by
  obtain ⟨next, rfl, hNext⟩ := h
  refine ⟨rfl, rfl, ?_⟩
  intro expected got (hEnded : next = surprise expected got)
  rw [hEnded] at hNext
  cases hNext

theorem Expects.roomId {c : ClientSession} {error : WsProto.JoinError} {down : List WsProto.ServerEvent}
    (h : Expects c (.joinError error :: down)) (hClient : c.suspended = .awaitVoiceUdp) :
    error = { roomId := c.channelId } := by
  cases h with
  | refused => rfl
  | starting hOther | talking hOther => cases hClient.symm.trans hOther

theorem Agreed.roomId {c : ClientSession} {s : ServerSession} {up : List WsProto.ClientEvent}
    {error : WsProto.JoinError} {down : List WsProto.ServerEvent}
    (h : Agreed base64 c s keys up (.joinError error :: down)) (hClient : c.suspended = .awaitVoiceUdp) :
    error = { roomId := c.channelId } := by
  cases h with
  | both hJoint => exact hJoint.expects.roomId hClient
  | clientDone hDone => simp [hClient, isDone] at hDone
  | serverDone _ hExpects => exact hExpects.roomId hClient

/-- The client of the next state, with how it may have ended. -/
theorem client_step {e : Event} (h : Linked base64 keys l) (hStep : l.step base64 e = some (l', o)) :
    l'.client = l.client ∨ (l'.client.userId = l.client.userId ∧
      l'.client.channelId = l.client.channelId ∧ OnlyRefused l'.client) := by
  cases e with
  | client e =>
    rw [Link.step, Option.ite_none_left_eq_some] at hStep
    obtain ⟨⟨c', out⟩, hNext, hEq⟩ := Option.map_eq_some_iff.mp hStep.2
    cases hEq
    exact .inr (OnlyRefused.of_suspend (step_suspend (Bool.eq_false_iff.mpr hStep.1) hNext))
  | clientNext =>
    obtain ⟨up, down, _, hDown, hAgreed⟩ := h
    simp only [Link.step] at hStep
    split at hStep
    · rename_i event items hItems
      obtain ⟨⟨c', out⟩, hNext, hEq⟩ := Option.map_eq_some_iff.mp hStep
      obtain ⟨rest, rfl, _⟩ := hDown.pop hItems
      have hReceiving := isReceiving_of_next hNext
      cases hEq
      rcases nextEvent_suspend (hAgreed.clientExpects hReceiving) hNext with hMoves | hRefused
      · exact .inr (OnlyRefused.of_suspend hMoves)
      · obtain ⟨error, rfl, hClient, rfl⟩ := hRefused
        refine .inr ⟨rfl, rfl, fun expected got hEnded => ?_⟩
        cases hEnded
        exact ⟨rfl, congrArg WsProto.ServerEvent.joinError (hAgreed.roomId hClient)⟩
    · rw [Option.ite_none_right_eq_some] at hStep
      obtain ⟨⟨c', out⟩, hNext, hEq⟩ := Option.map_eq_some_iff.mp hStep.2
      cases hEq
      exact .inr (OnlyRefused.of_suspend (clientEnd_suspend hNext))
  | server e =>
    rw [Link.step, Option.ite_none_left_eq_some] at hStep
    obtain ⟨next, _, hEq⟩ := Option.map_eq_some_iff.mp hStep.2
    cases hEq
    exact .inl rfl
  | serverNext sessionId =>
    simp only [Link.step] at hStep
    split at hStep
    · obtain ⟨next, _, hEq⟩ := Option.map_eq_some_iff.mp hStep
      cases hEq
      exact .inl rfl
    · rw [Option.ite_none_right_eq_some] at hStep
      obtain ⟨next, _, hEq⟩ := Option.map_eq_some_iff.mp hStep.2
      cases hEq
      exact .inl rfl
  | receiverGone | cutUp | cutDown =>
    cases hStep
    exact .inl rfl

theorem underway_step {userId channelId : Uuid} {e : Event} (h : Underway base64 userId channelId keys l)
    (hStep : l.step base64 e = some (l', o)) :
    Underway base64 userId channelId (keys ++ (issued e).toList) l' := by
  have hLinked := linked_step h.linked hStep
  rcases client_step h.linked hStep with hSame | ⟨hUser, hChannel, hRefused⟩
  · exact ⟨hLinked, hSame ▸ h.userId_eq, hSame ▸ h.channelId_eq, hSame ▸ h.onlyRefused⟩
  · exact ⟨hLinked, hUser.trans h.userId_eq, hChannel.trans h.channelId_eq, hRefused⟩

theorem underway_of_run {userId channelId : Uuid} {name : String} {es : List Event}
    (hRun : Machine.run (Link.step base64) (Link.new userId name channelId) es = some (l, tr)) :
    Underway base64 userId channelId (es.filterMap issued) l := by
  refine Machine.run_history (P := fun es l _ => Underway base64 userId channelId (es.filterMap issued) l)
    (underway_new userId name channelId) ?_ hRun
  intro es l tr e l' o _ hUnderway hStep
  have hSnoc : (es ++ [e]).filterMap issued = es.filterMap issued ++ (issued e).toList := by
    rw [List.filterMap_append]
    cases hIssued : issued e <;> simp [hIssued]
  rw [hSnoc]
  exact underway_step hUnderway hStep

/-- Whatever happens in between and wherever the pipes are cut, what either end reads is what it
waits for, and the only message that ends a client by surprise is that its channel was not found. -/
theorem neither_end_surprised (base64 : TextForm Key) (userId : Uuid) (name : String) (channelId : Uuid)
    (es : List Event) :
    Machine.Along (Link.step base64) Welcome (Link.new userId name channelId) es ∧
      ∀ l tr, Machine.run (Link.step base64) (Link.new userId name channelId) es = some (l, tr) →
        ∀ expected got, l.client.suspended = surprise expected got →
          expected = "Announce" ∧ got = .joinError { roomId := channelId } := by
  constructor
  · refine Machine.along_of_invariant (I := fun l => ∃ keys, Linked base64 keys l)
      ⟨[], linked_new userId name channelId⟩ ?_ ?_ es
    · rintro l e ⟨keys, hLinked⟩
      exact hLinked.welcome e
    · rintro l e l' o ⟨keys, hLinked⟩ hStep
      exact ⟨_, linked_step hLinked hStep⟩
  · intro l tr hRun expected got hEnded
    have hUnderway := underway_of_run hRun
    rw [← hUnderway.channelId_eq]
    exact hUnderway.onlyRefused expected got hEnded

/-- While a client is in its voice connection and its session has not ended, they agree on the
client, the channel, the source id and the key that the voice host issued. -/
theorem voice_connection_agreed {userId channelId : Uuid} {name : String} {es : List Event}
    (hRun : Machine.run (Link.step base64) (Link.new userId name channelId) es = some (l, tr))
    {srcId : UInt32} {key : Key} (hClient : l.client.suspended = .select srcId key)
    (hServer : l.server.suspended ≠ .ended) :
    l.server.suspended = .select ∧ es.filterMap issued = [key] ∧
      ∀ handle, l.server.voice = some handle →
        handle = { clientId := userId, channelId, sourceId := srcId } := by
  have hUnderway := underway_of_run hRun
  obtain ⟨up, down, _, _, hAgreed⟩ := hUnderway.linked
  cases hAgreed with
  | both hJoint =>
    obtain ⟨hSelect, hKeys, _, hRest⟩ := hJoint.rest_of (.inr hClient)
    refine ⟨hSelect, hKeys, fun handle hVoice => ?_⟩
    rw [← hUnderway.userId_eq, ← hUnderway.channelId_eq]
    cases hRest with
    | live hLive => exact Option.some.inj (hVoice.symm.trans hLive)
    | finished hNone => cases hVoice.symm.trans hNone
  | clientDone hDone => simp [hClient, isDone] at hDone
  | serverDone hEnded => exact absurd hEnded hServer

/-- From the connection of a client to its voice connection. -/
def call : List Event :=
  [.client (.connected true), .serverNext 9, .clientNext, .serverNext 0,
    .server (.gotChannel (.ok true)), .server (.openedConnection (.ok ⟨⟨.v4 0x7f000001#32, 33330⟩, 3⟩)),
    .server (.joined true), .server (.listedMembers (some [])), .clientNext,
    .client (.boundUdp true), .client (.discoveredIp (some ⟨.v4 0x7f000001#32, 5000⟩)), .serverNext 0,
    .server (.establishedSession (.ok ⟨List.replicate 32 7⟩)), .clientNext, .client (.ranUdp true)]

theorem voice_connection_agreed_of_call :
    ∃ l tr, Machine.run (Link.step Base64.standard) (Link.new 1 "a" 7) call = some (l, tr) ∧
      l.client.suspended = .select 3 (List.replicate 32 7) ∧
      ∀ handle, l.server.voice = some handle →
        handle = { clientId := 1, channelId := 7, sourceId := 3 } := by
  have hRun : Machine.run (Link.step Base64.standard) (Link.new 1 "a" 7) call = some (_, _) := rfl
  exact ⟨_, _, hRun, rfl, (voice_connection_agreed hRun rfl nofun).2.2⟩

/-- The two ends never wait for each other in vain: when both read and nothing is on its way, the
client is in the voice connection that the session holds for it. -/
theorem established_of_both_waiting {userId channelId : Uuid} {name : String} {es : List Event}
    (hRun : Machine.run (Link.step base64) (Link.new userId name channelId) es = some (l, tr))
    (hUp : l.up = Pipe.new) (hDown : l.down = Pipe.new)
    (hClient : ClientSession.isReceiving l.client.suspended = true)
    (hServer : serverReads l.server.suspended = true) :
    ∃ srcId key, l.client.suspended = .select srcId key ∧ es.filterMap issued = [key] ∧
      l.server.voice = some { clientId := userId, channelId, sourceId := srcId } := by
  have hUnderway := underway_of_run hRun
  obtain ⟨up, down, hHeldUp, hHeldDown, hAgreed⟩ := hUnderway.linked
  have hNoUp : [] = up := by simpa [hUp, Pipe.new] using hHeldUp.whole
  have hNoDown : [] = down := by simpa [hDown, Pipe.new] using hHeldDown.whole
  subst hNoUp hNoDown
  have hHolds : ∃ srcId key, l.client.suspended = .select srcId key ∧ es.filterMap issued = [key] ∧
      ∃ rest, rest = [] ∧ Rest l.client l.server srcId rest := by
    cases hAgreed with
    | clientDone hDone => simp [not_receiving_of_done hDone] at hClient
    | serverDone hEnded => simp [hEnded, serverReads] at hServer
    | both hJoint =>
      generalize hKeys : es.filterMap issued = keys at hJoint
      cases hJoint with
      | connecting hOther | starting hOther => simp [hOther, ClientSession.isReceiving] at hClient
      | opening _ hOpens => cases hAt : l.server.suspended <;> simp [hAt, opens, serverReads] at hOpens hServer
      | discovering hOther =>
        rcases hOther with ⟨_, hOther, _⟩ | ⟨_, hOther⟩ <;> simp [hOther, ClientSession.isReceiving] at hClient
      | establishing _ hOther => simp [hOther, serverReads] at hServer
      | @talking srcId key hSelect _ rest hRest => exact ⟨srcId, key, hSelect, rfl, [], rfl, hRest⟩
  obtain ⟨srcId, key, hSelect, hKey, rest, hRest, hHeld⟩ := hHolds
  refine ⟨srcId, key, hSelect, hKey, ?_⟩
  rw [← hUnderway.userId_eq, ← hUnderway.channelId_eq]
  cases hHeld with
  | live hVoice => exact hVoice
  | finished => simp at hRest

theorem established_of_both_waiting_of_call :
    ∃ l tr, Machine.run (Link.step Base64.standard) (Link.new 1 "a" 7) call = some (l, tr) ∧
      ∃ srcId key, l.client.suspended = .select srcId key ∧ call.filterMap issued = [key] ∧
        l.server.voice = some { clientId := 1, channelId := 7, sourceId := srcId } := by
  have hRun : Machine.run (Link.step Base64.standard) (Link.new 1 "a" 7) call = some (_, _) := rfl
  exact ⟨_, _, hRun, established_of_both_waiting hRun rfl rfl rfl rfl⟩

end Voices.Control
