import Voices.Control.ClientMoves

/-!
# The moves of a session

The other side: what a session does with the messages of its client and with the answers to
its calls. Whatever it tells its client is what the client waits for.
-/

namespace Voices.Control

open VoiceServer VoiceInstance Semantics Client
open Gateway.Conversation (ServerSession VoiceHandle Suspended isUpdate)

variable {base64 : TextForm Key} {c : ClientSession} {s s' : ServerSession} {keys : List Key}
  {up : List WsProto.ClientEvent} {down told : List WsProto.ServerEvent}

section ServerSteps

def isRunning : Suspended → Bool
  | .ended => false
  | _ => true

/-- What the invariants read of a session. -/
structure Same (s s' : ServerSession) : Prop where
  suspended : s'.suspended = s.suspended
  voice : s'.voice = s.voice
  clientId : s'.clientId = s.clientId

theorem Rest.same (hSame : Same s s') {sourceId : UInt32} (h : Rest c s sourceId down) :
    Rest c s' sourceId down := by
  cases h with
  | live hVoice hUpdates => exact .live (hSame.voice.trans hVoice) hUpdates
  | finished hVoice hUpdates => exact .finished (hSame.voice.trans hVoice) hUpdates

theorem Awaits.same (hSame : Same s s') (h : Awaits s up) : Awaits s' up := by
  have hAt := hSame.suspended
  cases h with
  | nothing => exact .nothing
  | init hServer init => exact .init (hAt.trans hServer) init
  | join hServer hVoice join => exact .join (hAt.trans hServer) (hSame.voice.trans hVoice) join
  | udpAnnounce hServer announce => exact .udpAnnounce (hAt.trans hServer) announce
  | leave hServer => exact .leave (hAt.trans hServer)

theorem Joint.same (hSame : Same s s') (h : Joint base64 c s keys up down) :
    Joint base64 c s' keys up down := by
  obtain ⟨hAt, hHandle, hClientId⟩ := hSame
  cases h with
  | connecting hClient hServer hVoice =>
    exact .connecting hClient (hAt.trans hServer) (hHandle.trans hVoice)
  | greeting hClient hServer hVoice => exact .greeting hClient (hAt.trans hServer) (hHandle.trans hVoice)
  | greeted hClient hServer hVoice hId initialized =>
    exact .greeted hClient (hAt.trans hServer) (hHandle.trans hVoice) (hClientId.trans hId) initialized
  | joining hClient hServer hVoice hId =>
    exact .joining hClient (hAt.trans hServer) (hHandle.trans hVoice) (hClientId.trans hId)
  | opening hClient hServer hVoice hId =>
    exact .opening hClient (hAt ▸ hServer) (hHandle.trans hVoice) (hClientId.trans hId)
  | refused hClient hServer hVoice => exact .refused hClient (hAt.trans hServer) (hHandle.trans hVoice)
  | announced hClient hServer hVoice hId =>
    exact .announced hClient (hAt.trans hServer) (hHandle.trans hVoice) (hClientId.trans hId)
  | discovering hClient hServer hVoice hId =>
    exact .discovering hClient (hAt.trans hServer) (hHandle.trans hVoice) (hClientId.trans hId)
  | answering hClient hServer hVoice hId announce =>
    exact .answering hClient (hAt.trans hServer) (hHandle.trans hVoice) (hClientId.trans hId) announce
  | establishing hClient hServer hChannel hVoice hId =>
    exact .establishing hClient (hAt.trans hServer) hChannel (hHandle.trans hVoice) (hClientId.trans hId)
  | accepted hClient hServer hKey hRest =>
    exact .accepted hClient (hAt.trans hServer) hKey (hRest.same ⟨hAt, hHandle, hClientId⟩)
  | starting hClient hServer hRest =>
    exact .starting hClient (hAt.trans hServer) (hRest.same ⟨hAt, hHandle, hClientId⟩)
  | talking hClient hServer hRest =>
    exact .talking hClient (hAt.trans hServer) (hRest.same ⟨hAt, hHandle, hClientId⟩)

theorem Agreed.same (hSame : Same s s') (h : Agreed base64 c s keys up down) :
    Agreed base64 c s' keys up down := by
  cases h with
  | both hJoint => exact .both (hJoint.same hSame)
  | clientDone hDone hAwaits =>
    refine .clientDone hDone ?_
    rcases hAwaits with hEnded | hAwaits
    · exact .inl (hSame.suspended.trans hEnded)
    · exact .inr (hAwaits.same hSame)
  | serverDone hEnded hExpects => exact .serverDone (hSame.suspended.trans hEnded) hExpects

/-- The session ends, and its client goes on alone with what was sent to it. -/
theorem Agreed.finish (h : Agreed base64 c s keys up down) {s' : ServerSession} (hEnded : s'.suspended = .ended)
    (keys' : List Key) (up' : List WsProto.ClientEvent) : Agreed base64 c s' keys' up' down := by
  cases h with
  | both hJoint => exact .serverDone hEnded hJoint.expects
  | clientDone hDone => exact .clientDone hDone (.inl hEnded)
  | serverDone _ hExpects => exact .serverDone hEnded hExpects

/-- A message of the session, if it can be sent at all. -/
theorem Agreed.serverSend (h : Agreed base64 c s keys up down) {next : ServerSession}
    {event : WsProto.ServerEvent}
    {keys' : List Key} {up' : List WsProto.ClientEvent}
    (hSent : Agreed base64 c next keys' up' (down ++ [event])) :
    Agreed base64 c (s.send next event).1 keys' up' (down ++ (s.send next event).2) := by
  rw [ServerSession.send]
  split
  · rw [List.append_nil]
    exact h.finish rfl _ _
  · exact hSent

theorem Awaits.eq_nil (h : Awaits s up) (hBusy : serverReads s.suspended = false) : up = [] := by
  cases h with
  | nothing => rfl
  | init hServer | join hServer | udpAnnounce hServer | leave hServer =>
    rw [hServer] at hBusy
    cases hBusy

/-- A session that neither reads nor has ended goes on as it likes when its client is done. -/
theorem alone (h : s.suspended = .ended ∨ Awaits s up)
    (hBusy : serverReads s.suspended = false ∧ isRunning s.suspended = true) {s' : ServerSession} :
    s'.suspended = .ended ∨ Awaits s' up := by
  rcases h with hEnded | hAwaits
  · rw [hEnded] at hBusy
    cases hBusy.2
  · rw [hAwaits.eq_nil hBusy.1]
    exact .inr .nothing

theorem Joint.opening_of (h : Joint base64 c s keys up down) (hAt : isOpening s.suspended = true) :
    c.suspended = .awaitVoiceUdp ∧ opens c.channelId s.suspended ∧ s.voice = none ∧
      s.clientId = c.userId ∧ keys = [] ∧ up = [] ∧ down = [] := by
  cases h with
  | opening hClient hServer hVoice hId => exact ⟨hClient, hServer, hVoice, hId, rfl, rfl, rfl⟩
  | connecting _ hServer | greeting _ hServer | greeted _ hServer | joining _ hServer | refused _ hServer
  | announced _ hServer | discovering _ hServer | answering _ hServer | establishing _ hServer
  | accepted _ hServer | starting _ hServer | talking _ hServer =>
    rw [hServer] at hAt
    cases hAt

theorem Joint.establishing_of (h : Joint base64 c s keys up down) {request : EstablishSession}
    {sourceId : UInt32} {present : List Gateway.ClientInfo}
    (hAt : s.suspended = .establishSession request sourceId present) :
    c.suspended = .awaitReady ∧ request.channelId = c.channelId ∧ s.clientId = c.userId ∧
      keys = [] ∧ up = [] ∧ down = [] := by
  cases h with
  | establishing hClient hServer hChannel _ hId =>
    cases hAt.symm.trans hServer
    exact ⟨hClient, hChannel, hId, rfl, rfl, rfl⟩
  | opening _ hServer =>
    rw [hAt] at hServer
    exact hServer.elim
  | connecting _ hServer | greeting _ hServer | greeted _ hServer | joining _ hServer | refused _ hServer
  | announced _ hServer | discovering _ hServer | answering _ hServer | accepted _ hServer
  | starting _ hServer | talking _ hServer => cases hAt.symm.trans hServer

/-- A session with a voice connection has told its client only of others' updates since `Ready`. -/
theorem Joint.live_of (h : Joint base64 c s keys up down) {handle : VoiceHandle}
    (hVoice : s.voice = some handle) :
    ∃ told sourceId updates, down = told ++ updates ∧ up = [] ∧ s.suspended = .select ∧
      handle = { clientId := c.userId, channelId := c.channelId, sourceId } ∧
      (∀ u ∈ updates, isUpdate u = true) ∧
      ∀ s' rest, s'.suspended = .select → Rest c s' sourceId rest →
        Joint base64 c s' keys [] (told ++ rest) := by
  cases h with
  | @accepted hClient hServer ready key hKey rest hRest =>
    cases hRest with
    | live hLive hUpdates =>
      cases hVoice.symm.trans hLive
      refine ⟨[.ready ready], _, _, rfl, rfl, hServer, rfl, hUpdates, fun s' rest' hServer' hRest' => ?_⟩
      exact .accepted hClient hServer' hKey hRest'
    | finished hNone => cases hVoice.symm.trans hNone
  | starting hClient hServer hRest =>
    cases hRest with
    | live hLive hUpdates =>
      cases hVoice.symm.trans hLive
      exact ⟨[], _, _, rfl, rfl, hServer, rfl, hUpdates, fun s' rest' hServer' hRest' =>
        .starting hClient hServer' hRest'⟩
    | finished hNone => cases hVoice.symm.trans hNone
  | talking hClient hServer hRest =>
    cases hRest with
    | live hLive hUpdates =>
      cases hVoice.symm.trans hLive
      exact ⟨[], _, _, rfl, rfl, hServer, rfl, hUpdates, fun s' rest' hServer' hRest' =>
        .talking hClient hServer' hRest'⟩
    | finished hNone => cases hVoice.symm.trans hNone
  | connecting _ _ hNone | greeting _ _ hNone | greeted _ _ hNone | joining _ _ hNone | opening _ _ hNone
  | refused _ _ hNone | announced _ _ hNone | discovering _ _ hNone | answering _ _ hNone
  | establishing _ _ _ hNone => cases hVoice.symm.trans hNone

theorem Agreed.of_server {result : ServerSession × List WsProto.ServerEvent} {keys' : List Key}
    (h : Agreed base64 c result.1 keys' up (down ++ result.2)) (hEq : some result = some (s', told)) :
    Agreed base64 c s' keys' up (down ++ told) := by
  cases Option.some.inj hEq
  exact h

/-- A call returns, and the session makes the next one for the same channel. -/
theorem Agreed.call (h : Agreed base64 c s keys up down) (hAt : isOpening s.suspended = true) {next : Suspended}
    (hNext : ∀ channelId, opens channelId s.suspended → opens channelId next) :
    Agreed base64 c (s.suspend next) keys up (down ++ []) := by
  have hBusy : serverReads s.suspended = false ∧ isRunning s.suspended = true := by
    cases hAt' : s.suspended <;> rw [hAt'] at hAt <;> first | exact ⟨rfl, rfl⟩ | cases hAt
  rw [List.append_nil]
  cases h with
  | both hJoint =>
    obtain ⟨hClient, hOpens, hVoice, hId, rfl, rfl, rfl⟩ := hJoint.opening_of hAt
    exact .both (.opening hClient (hNext _ hOpens) hVoice hId)
  | clientDone hDone hAwaits => exact .clientDone hDone (alone hAwaits hBusy)
  | serverDone hEnded =>
    rw [hEnded] at hAt
    cases hAt

theorem Agreed.callOr (h : Agreed base64 c s keys up down) (hAt : isOpening s.suspended = true)
    {next : Suspended}
    (hNext : ∀ channelId, opens channelId s.suspended → opens channelId next) (ok : Bool) :
    Agreed base64 c (if ok then s.suspend next else s.finish) keys up (down ++ []) := by
  split
  · exact h.call hAt hNext
  · rw [List.append_nil]
    exact h.finish rfl _ _

theorem Agreed.openedConnection (h : Agreed base64 c s keys up down) {channelId : Uuid}
    (hAt : s.suspended = .openConnection channelId) (result : Except VoiceHostError ConnectionData) :
    Agreed base64 c (s.openedConnection channelId result) keys up (down ++ []) := by
  have hOpening : isOpening s.suspended = true := by rw [hAt]; rfl
  unfold ServerSession.openedConnection
  split
  · exact h.call hOpening fun id hOpens => by rwa [hAt] at hOpens
  · exact h.call hOpening fun id hOpens => by rwa [hAt] at hOpens
  · rw [List.append_nil]
    exact h.finish rfl _ _

theorem Agreed.reopenedConnection (h : Agreed base64 c s keys up down) {channelId : Uuid}
    (hAt : s.suspended = .reopenConnection channelId) (result : Except VoiceHostError ConnectionData) :
    Agreed base64 c (s.reopenedConnection channelId result) keys up (down ++ []) := by
  have hOpening : isOpening s.suspended = true := by rw [hAt]; rfl
  unfold ServerSession.reopenedConnection
  split
  · exact h.call hOpening fun id hOpens => by rwa [hAt] at hOpens
  · rw [List.append_nil]
    exact h.finish rfl _ _

theorem Agreed.gotChannel (h : Agreed base64 c s keys up down) {channelId : Uuid}
    (hAt : s.suspended = .getOrInit channelId) (result : Except String Bool) :
    Agreed base64 c (s.gotChannel channelId result).1 keys up (down ++ (s.gotChannel channelId result).2) := by
  have hOpening : isOpening s.suspended = true := by rw [hAt]; rfl
  unfold ServerSession.gotChannel
  split
  · exact h.call hOpening fun id hOpens => by rwa [hAt] at hOpens
  · refine h.serverSend ?_
    cases h with
    | both hJoint =>
      obtain ⟨hClient, hOpens, hVoice, hId, rfl, rfl, rfl⟩ := hJoint.opening_of hOpening
      rw [hAt] at hOpens
      cases hOpens
      exact .both (.refused hClient rfl hVoice)
    | clientDone hDone hAwaits => exact .clientDone hDone (alone hAwaits (by rw [hAt]; exact ⟨rfl, rfl⟩))
    | serverDone hEnded => cases hAt.symm.trans hEnded
  · rw [List.append_nil]
    exact h.finish rfl _ _

theorem Agreed.listedMembers (h : Agreed base64 c s keys up down) {channelId : Uuid} {udpAddr : SocketAddr}
    {info : Gateway.ClientInfo} (hAt : s.suspended = .listMembers channelId udpAddr info)
    (result : Option (List Gateway.ClientInfo)) :
    Agreed base64 c (s.listedMembers channelId udpAddr info result).1 keys up
      (down ++ (s.listedMembers channelId udpAddr info result).2) := by
  have hOpening : isOpening s.suspended = true := by rw [hAt]; rfl
  unfold ServerSession.listedMembers
  split
  · refine h.serverSend ?_
    cases h with
    | both hJoint =>
      obtain ⟨hClient, hOpens, hVoice, hId, rfl, rfl, rfl⟩ := hJoint.opening_of hOpening
      rw [hAt] at hOpens
      cases hOpens
      exact .both (.announced hClient rfl hVoice hId)
    | clientDone hDone hAwaits => exact .clientDone hDone (alone hAwaits (by rw [hAt]; exact ⟨rfl, rfl⟩))
    | serverDone hEnded => cases hAt.symm.trans hEnded
  · rw [List.append_nil]
    exact h.finish rfl _ _

theorem Agreed.establishedSession (h : Agreed base64 c s keys up down) {request : EstablishSession}
    {sourceId : UInt32} {present : List Gateway.ClientInfo}
    (hAt : s.suspended = .establishSession request sourceId present)
    (result : Except VoiceHostError SessionData) :
    Agreed base64 c (s.establishedSession base64.display request sourceId present result).1
      (keys ++ (issuedKey (.establishedSession result)).toList) up
      (down ++ (s.establishedSession base64.display request sourceId present result).2) := by
  unfold ServerSession.establishedSession
  split
  · rename_i data
    refine h.serverSend ?_
    cases h with
    | both hJoint =>
      obtain ⟨hClient, hChannel, hId, rfl, rfl, rfl⟩ := hJoint.establishing_of hAt
      refine .both (Joint.accepted (c := c) hClient rfl rfl ?_)
      exact Rest.live (c := c) (by rw [hId, hChannel]; rfl) nofun
    | clientDone hDone hAwaits => exact .clientDone hDone (alone hAwaits (by rw [hAt]; exact ⟨rfl, rfl⟩))
    | serverDone hEnded => cases hAt.symm.trans hEnded
  · rw [List.append_nil]
    exact h.finish rfl _ _

/-- Only a leave can be waiting for a session with a voice connection. -/
theorem Awaits.select (h : Awaits s up) (hAt : s.suspended = .select) {handle : VoiceHandle}
    (hVoice : s.voice = some handle) {s' : ServerSession} (hNext : s'.suspended = .select) :
    Awaits s' up := by
  cases h with
  | nothing => exact .nothing
  | leave => exact .leave hNext
  | join _ hNone => cases hVoice.symm.trans hNone
  | init hOther | udpAnnounce hOther => cases hAt.symm.trans hOther

/-- The session tells its client something about the voice connection that it has. -/
theorem Agreed.tell (h : Agreed base64 c s keys up down) (hAt : s.suspended = .select) {handle : VoiceHandle}
    (hVoice : s.voice = some handle) {next : ServerSession} (hNext : next.suspended = .select)
    {event : WsProto.ServerEvent}
    (hRest : ∀ sourceId updates, handle = { clientId := c.userId, channelId := c.channelId, sourceId } →
      (∀ u ∈ updates, isUpdate u = true) → Rest c next sourceId (updates ++ [event])) :
    Agreed base64 c (s.send next event).1 keys up (down ++ (s.send next event).2) := by
  refine h.serverSend ?_
  cases h with
  | both hJoint =>
    obtain ⟨told, sourceId, updates, rfl, rfl, _, hHandle, hUpdates, hBuild⟩ := hJoint.live_of hVoice
    rw [List.append_assoc]
    exact .both (hBuild next _ hNext (hRest sourceId updates hHandle hUpdates))
  | clientDone hDone hAwaits =>
    refine .clientDone hDone (.inr ?_)
    rcases hAwaits with hEnded | hAwaits
    · cases hAt.symm.trans hEnded
    · exact hAwaits.select hAt hVoice hNext
  | serverDone hEnded => cases hAt.symm.trans hEnded

theorem Agreed.statusEnded (h : Agreed base64 c s keys up down) (hAt : s.suspended = .select)
    {handle : VoiceHandle} (hVoice : s.voice = some handle) :
    Agreed base64 c (s.send { s with voice := none } .disconnected).1 keys up
      (down ++ (s.send { s with voice := none } .disconnected).2) := by
  have hNext : ({ s with voice := none } : ServerSession).suspended = .select := hAt
  exact h.tell hAt hVoice hNext fun _ _ _ hUpdates => .finished rfl hUpdates

theorem Agreed.chanEvent (h : Agreed base64 c s keys up down) (hAt : s.suspended = .select)
    {handle : VoiceHandle} (hVoice : s.voice = some handle) (event : Gateway.ChannelEvent) :
    Agreed base64 c (s.chanEvent event).1 keys up (down ++ (s.chanEvent event).2) := by
  unfold ServerSession.chanEvent
  split
  · rename_i message hMessage
    refine h.tell hAt hVoice hAt fun sourceId updates hHandle hUpdates => ?_
    refine .live (hHandle ▸ hVoice) fun u hMem => ?_
    rcases List.mem_append.mp hMem with hOld | hNew
    · exact hUpdates u hOld
    · rw [List.mem_singleton.mp hNew]
      exact ServerSession.isUpdate_chanMessage hMessage
  · rwa [List.append_nil]

/-- What a session does while it does not read: its client waits for what it is told. -/
theorem Agreed.serverStep (h : Agreed base64 c s keys up down) {e : Gateway.Conversation.Event}
    (hLocal : isServerNext e = false) (hStep : s.step base64.display e = some (s', told)) :
    Agreed base64 c s' (keys ++ (issuedKey e).toList) up (down ++ told) := by
  cases e with
  | handshake | client => cases hLocal
  | establishedSession result =>
    simp only [ServerSession.step] at hStep
    split at hStep
    · rename_i hAt
      exact (h.establishedSession hAt result).of_server hStep
    · cases hStep
  | receiverGone =>
    cases hStep
    simp only [issuedKey, Option.toList_none, List.append_nil]
    have hSame : Same s { s with dead := true } := ⟨rfl, rfl, rfl⟩
    exact h.same hSame
  | statusEnded =>
    simp only [ServerSession.step, issuedKey, Option.toList_none, List.append_nil] at hStep ⊢
    split at hStep
    · rename_i hAt hVoice
      exact (h.statusEnded hAt hVoice).of_server hStep
    · cases hStep
  | chanEvent event =>
    simp only [ServerSession.step, issuedKey, Option.toList_none, List.append_nil] at hStep ⊢
    split at hStep
    · rename_i hAt hVoice
      exact (h.chanEvent hAt hVoice event).of_server hStep
    · cases hStep
  | gotChannel result =>
    simp only [ServerSession.step, issuedKey, Option.toList_none, List.append_nil] at hStep ⊢
    split at hStep
    · rename_i hAt
      exact (h.gotChannel hAt result).of_server hStep
    · cases hStep
  | openedConnection result =>
    simp only [ServerSession.step, issuedKey, Option.toList_none, List.append_nil] at hStep ⊢
    split at hStep
    · rename_i hAt
      exact (h.openedConnection hAt result).of_server hStep
    · rename_i hAt
      exact (h.reopenedConnection hAt result).of_server hStep
    · cases hStep
  | reassigned ok =>
    simp only [ServerSession.step, issuedKey, Option.toList_none, List.append_nil] at hStep ⊢
    split at hStep
    · rename_i channelId hAt
      have hNext : ∀ id, opens id s.suspended → opens id (.reopenConnection channelId) := by
        rw [hAt]
        exact fun id hOpens => hOpens
      exact (h.callOr (by rw [hAt]; rfl) hNext ok).of_server hStep
    · cases hStep
  | joined ok =>
    simp only [ServerSession.step, issuedKey, Option.toList_none, List.append_nil] at hStep ⊢
    split at hStep
    · rename_i channelId udpAddr info hAt
      have hNext : ∀ id, opens id s.suspended → opens id (.listMembers channelId udpAddr info) := by
        rw [hAt]
        exact fun id hOpens => hOpens
      exact (h.callOr (by rw [hAt]; rfl) hNext ok).of_server hStep
    · cases hStep
  | listedMembers result =>
    simp only [ServerSession.step, issuedKey, Option.toList_none, List.append_nil] at hStep ⊢
    split at hStep
    · rename_i hAt
      exact (h.listedMembers hAt result).of_server hStep
    · cases hStep

theorem Agreed.handshake {m : WsProto.ClientEvent} (h : Agreed base64 c s keys (m :: up) down)
    (hAt : s.suspended = .awaitHandshake) (sessionId : Uuid) :
    Agreed base64 c (s.initialized sessionId (some m)).1 keys up
      (down ++ (s.initialized sessionId (some m)).2) := by
  cases m with
  | init init =>
    refine h.serverSend ?_
    cases h with
    | both hJoint =>
      cases hJoint with
      | greeting hClient _ hVoice =>
        let next : ServerSession := { s with clientId := c.userId, clientName := c.name, suspended := .select }
        exact .both (Joint.greeted (s := next) hClient rfl hVoice rfl { sessionId })
    | clientDone hDone hAwaits =>
      refine .clientDone hDone (.inr ?_)
      rcases hAwaits with hEnded | hAwaits
      · cases hAt.symm.trans hEnded
      · cases hAwaits with
        | init => exact .nothing
    | serverDone hEnded => cases hAt.symm.trans hEnded
  | keepalive | join | udpAnnounce | leave | disconnect =>
    have hFinish : Agreed base64 c s.finish keys up (down ++ []) := by
      rw [List.append_nil]
      exact h.finish rfl _ _
    exact hFinish

theorem Agreed.clientUdp {m : WsProto.ClientEvent} (h : Agreed base64 c s keys (m :: up) down)
    {channelId : Uuid} {sourceId : UInt32} {present : List Gateway.ClientInfo}
    (hAt : s.suspended = .awaitClientUdp channelId sourceId present) :
    Agreed base64 c (s.clientUdp channelId sourceId present (some m)) keys up (down ++ []) := by
  have hFinish : Agreed base64 c s.finish keys up down := h.finish rfl _ _
  rw [List.append_nil]
  cases m with
  | udpAnnounce announce =>
    rw [ServerSession.clientUdp]
    split
    · exact hFinish
    · cases h with
      | both hJoint =>
        cases hJoint with
        | answering hClient hServer hVoice hId =>
          cases hAt.symm.trans hServer
          exact .both (Joint.establishing (c := c) hClient rfl rfl hVoice hId)
      | clientDone hDone hAwaits =>
        refine .clientDone hDone (.inr ?_)
        rcases hAwaits with hEnded | hAwaits
        · cases hAt.symm.trans hEnded
        · cases hAwaits with
          | udpAnnounce => exact .nothing
      | serverDone hEnded => cases hAt.symm.trans hEnded
  | init | keepalive | join | leave | disconnect => exact hFinish

/-- In the `select!` comes the one join of the client, or its leave. -/
theorem Agreed.handleEvent {m : WsProto.ClientEvent} (h : Agreed base64 c s keys (m :: up) down)
    (hAt : s.suspended = .select) :
    Agreed base64 c (s.handleEvent m).1 keys up (down ++ (s.handleEvent m).2) := by
  cases h with
  | both hJoint =>
    cases hJoint with
    | joining hClient _ hVoice hId =>
      have hStop : s.stopVoice = (s, []) := by
        have hSame : ({ s with voice := none } : ServerSession) = s := by rw [← hVoice]
        rw [ServerSession.stopVoice, hSame, hVoice]
        rfl
      rw [ServerSession.handleEvent, hStop]
      exact .both (.opening hClient rfl hVoice hId)
    | greeting _ hServer | answering _ hServer => cases hAt.symm.trans hServer
  | clientDone hDone hAwaits =>
    refine .clientDone hDone (.inr ?_)
    rcases hAwaits with hEnded | hAwaits
    · cases hAt.symm.trans hEnded
    · cases hAwaits with
      | init hServer | udpAnnounce hServer => cases hAt.symm.trans hServer
      | join | leave => exact .nothing
  | serverDone hEnded => cases hAt.symm.trans hEnded

/-- What a session does with a message that comes next. -/
theorem Agreed.serverNext {m : WsProto.ClientEvent} (h : Agreed base64 c s keys (m :: up) down)
    {sessionId : Uuid} (hStep : s.step base64.display (serverRead s sessionId (some m)) = some (s', told)) :
    Agreed base64 c s' keys up (down ++ told) := by
  cases hAt : s.suspended with
  | awaitHandshake =>
    simp only [serverRead, hAt, ServerSession.step] at hStep
    exact (h.handshake hAt sessionId).of_server hStep
  | select =>
    simp only [serverRead, hAt, ServerSession.step] at hStep
    exact (h.handleEvent hAt).of_server hStep
  | awaitClientUdp channelId sourceId present =>
    simp only [serverRead, hAt, ServerSession.step] at hStep
    exact (h.clientUdp hAt).of_server hStep
  | getOrInit | openConnection | reassignVoice | reopenConnection | join | listMembers | establishSession
  | ended =>
    simp only [serverRead, hAt, ServerSession.step] at hStep
    cases hStep

/-- The session finds its stream at its end, and ends its voice connection. -/
theorem Agreed.stopVoice (h : Agreed base64 c s keys up down) (hAt : s.suspended = .select) :
    Agreed base64 c s.stopVoice.1.finish keys up (down ++ s.stopVoice.2) := by
  rw [ServerSession.stopVoice]
  split
  · rename_i hSome
    obtain ⟨handle, hVoice⟩ := Option.isSome_iff_exists.mp (Bool.and_eq_true_iff.mp hSome).1
    cases h with
    | both hJoint =>
      obtain ⟨told, sourceId, updates, rfl, rfl, _, _, hUpdates, hBuild⟩ := hJoint.live_of hVoice
      let next : ServerSession := { s with voice := none }
      have hOver : Rest c next sourceId (updates ++ [.disconnected]) := .finished rfl hUpdates
      rw [List.append_assoc]
      exact .serverDone rfl (hBuild next _ hAt hOver).expects
    | clientDone hDone => exact .clientDone hDone (.inl rfl)
    | serverDone hEnded => cases hAt.symm.trans hEnded
  · rw [List.append_nil]
    exact h.finish rfl _ _

theorem Agreed.serverEnd (h : Agreed base64 c s keys up down) {sessionId : Uuid}
    (hStep : s.step base64.display (serverRead s sessionId none) = some (s', told)) :
    Agreed base64 c s' keys up (down ++ told) := by
  have hFinish : Agreed base64 c s.finish keys up (down ++ []) := by
    rw [List.append_nil]
    exact h.finish rfl _ _
  cases hAt : s.suspended with
  | awaitHandshake =>
    simp only [serverRead, hAt, ServerSession.step] at hStep
    refine Agreed.of_server ?_ hStep
    exact hFinish
  | select =>
    simp only [serverRead, hAt, ServerSession.step] at hStep
    exact (h.stopVoice hAt).of_server hStep
  | awaitClientUdp channelId sourceId present =>
    simp only [serverRead, hAt, ServerSession.step] at hStep
    refine Agreed.of_server ?_ hStep
    exact hFinish
  | getOrInit | openConnection | reassignVoice | reopenConnection | join | listMembers | establishSession
  | ended =>
    simp only [serverRead, hAt, ServerSession.step] at hStep
    cases hStep

end ServerSteps

end Voices.Control
