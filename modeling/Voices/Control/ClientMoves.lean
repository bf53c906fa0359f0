import Voices.Control.Link

/-!
# The moves of a client

What the two ends agree on, read off from either side, and what a client does: each of its
steps is one that its session is prepared for.
-/

namespace Voices.Control

open VoiceServer VoiceInstance Semantics Client
open Gateway.Conversation (ServerSession VoiceHandle Suspended isUpdate)

variable {base64 : TextForm Key} {c c' : ClientSession} {s : ServerSession} {keys : List Key}
  {up : List WsProto.ClientEvent} {down : List WsProto.ServerEvent} {out : List ClientOutput}

section Parts

theorem Updates.cons {m : WsProto.ServerEvent} {rest : List WsProto.ServerEvent}
    (h : Updates (m :: rest)) :
    (isUpdate m = true ∧ Updates rest) ∨ (m = .disconnected ∧ rest = []) := by
  generalize hEq : m :: rest = list at h
  cases h with
  | live hUpdates =>
    subst hEq
    exact .inl ⟨hUpdates m List.mem_cons_self, .live fun u hMem => hUpdates u (List.mem_cons_of_mem _ hMem)⟩
  | @finished updates hUpdates =>
    cases updates with
    | nil =>
      cases hEq
      exact .inr ⟨rfl, rfl⟩
    | cons u updates =>
      cases hEq
      refine .inl ⟨hUpdates m List.mem_cons_self, .finished fun u hMem => ?_⟩
      exact hUpdates u (List.mem_cons_of_mem _ hMem)

theorem Rest.updates {sourceId : UInt32} {rest : List WsProto.ServerEvent}
    (h : Rest c s sourceId rest) : Updates rest := by
  cases h with
  | live _ hUpdates => exact .live hUpdates
  | finished _ hUpdates => exact .finished hUpdates

theorem Rest.tail {sourceId : UInt32} {m : WsProto.ServerEvent} {rest : List WsProto.ServerEvent}
    (h : Rest c s sourceId (m :: rest)) :
    (isUpdate m = true ∧ Rest c s sourceId rest) ∨ (m = .disconnected ∧ rest = []) := by
  generalize hEq : m :: rest = list at h
  cases h with
  | live hVoice hUpdates =>
    subst hEq
    refine .inl ⟨hUpdates m List.mem_cons_self, .live hVoice fun u hMem => ?_⟩
    exact hUpdates u (List.mem_cons_of_mem _ hMem)
  | @finished hVoice updates hUpdates =>
    cases updates with
    | nil =>
      cases hEq
      exact .inr ⟨rfl, rfl⟩
    | cons u updates =>
      cases hEq
      refine .inl ⟨hUpdates m List.mem_cons_self, .finished hVoice fun u hMem => ?_⟩
      exact hUpdates u (List.mem_cons_of_mem _ hMem)

theorem Joint.expects (h : Joint base64 c s keys up down) : Expects c down := by
  cases h with
  | connecting | greeting | joining | opening | discovering | answering | establishing => exact .nothing
  | greeted hClient _ _ _ initialized => exact .init hClient initialized
  | refused hClient => exact .refused hClient
  | announced hClient => exact .announce hClient _
  | accepted hClient _ _ hRest => exact .ready hClient _ hRest.updates
  | starting hClient _ hRest => exact .starting hClient hRest.updates
  | talking hClient _ hRest => exact .talking hClient hRest.updates

theorem Joint.awaits (h : Joint base64 c s keys up down) : Awaits s up := by
  cases h with
  | greeting _ hServer => exact .init hServer _
  | joining _ hServer hVoice => exact .join hServer hVoice _
  | answering _ hServer _ _ announce => exact .udpAnnounce hServer announce
  | connecting | greeted | opening | refused | announced | discovering | establishing | accepted
  | starting | talking => exact .nothing

theorem not_receiving_of_done {suspended : ClientSuspended} (hDone : isDone suspended = true) :
    ClientSession.isReceiving suspended = false := by
  cases suspended <;> first | rfl | cases hDone

theorem Agreed.clientExpects {m : WsProto.ServerEvent} (h : Agreed base64 c s keys up (m :: down))
    (hReceiving : ClientSession.isReceiving c.suspended = true) :
    clientExpects c.suspended m = true := by
  have hExpects : Expects c (m :: down) := by
    cases h with
    | both hJoint => exact hJoint.expects
    | serverDone _ hExpects => exact hExpects
    | clientDone hDone => simp [not_receiving_of_done hDone] at hReceiving
  generalize hEq : m :: down = list at hExpects
  cases hExpects with
  | nothing => cases hEq
  | init hClient | announce hClient | refused hClient | ready hClient =>
    cases hEq
    rw [hClient]
    rfl
  | starting hClient =>
    rw [hClient] at hReceiving
    cases hReceiving
  | talking hClient hRest =>
    subst hEq
    rw [hClient]
    rcases hRest.cons with ⟨hUpdate, _⟩ | ⟨rfl, _⟩
    · cases m <;> first | exact hUpdate | cases hUpdate
    · rfl

theorem Agreed.serverExpects {m : WsProto.ClientEvent} (h : Agreed base64 c s keys (m :: up) down)
    (hReads : serverReads s.suspended = true) : serverExpects s m = true := by
  have hAwaits : Awaits s (m :: up) := by
    cases h with
    | both hJoint => exact hJoint.awaits
    | serverDone hEnded =>
      rw [hEnded] at hReads
      cases hReads
    | clientDone _ hAwaits =>
      refine hAwaits.resolve_left fun hEnded => ?_
      rw [hEnded] at hReads
      cases hReads
  cases hAwaits with
  | init hServer => exact decide_eq_true hServer
  | join hServer hVoice => exact decide_eq_true ⟨hServer, hVoice⟩
  | udpAnnounce hServer =>
    rw [Control.serverExpects, hServer]
  | leave hServer => exact decide_eq_true hServer

end Parts

section ClientSteps

/-- The session goes on alone with what was sent to it. -/
theorem Agreed.awaits (h : Agreed base64 c s keys up down) : s.suspended = .ended ∨ Awaits s up := by
  cases h with
  | both hJoint => exact .inr hJoint.awaits
  | clientDone _ hAwaits => exact hAwaits
  | serverDone hEnded => exact .inl hEnded

theorem Agreed.fail (h : Agreed base64 c s keys up down) (error : SessionError)
    (down' : List WsProto.ServerEvent) :
    Agreed base64 (c.fail error).1 s keys (up ++ (c.fail error).2.filterMap ClientOutput.sent?) down' := by
  rw [ClientSession.fail, List.filterMap_nil, List.append_nil]
  exact .clientDone rfl h.awaits

/-- A message of the client, if it can be sent at all. -/
theorem Agreed.clientSend (h : Agreed base64 c s keys up down) {dead : Bool} {next : ClientSuspended}
    {event : WsProto.ClientEvent}
    {down' : List WsProto.ServerEvent}
    (hSent : Agreed base64 (c.suspend next) s keys (up ++ [event]) down') :
    Agreed base64 (c.send dead next event).1 s keys
      (up ++ (c.send dead next event).2.filterMap ClientOutput.sent?) down' := by
  rw [ClientSession.send]
  split
  · exact h.fail _ _
  · exact hSent

/-- The calls of `async_main_` around which nothing is on its way to the client. -/
def isLocal : ClientSuspended → Bool
  | .connect => true
  | .udpSetup _ => true
  | .discoverIp _ _ => true
  | _ => false

theorem Expects.eq_nil (h : Expects c down) (hLocal : isLocal c.suspended = true) : down = [] := by
  cases h with
  | nothing => rfl
  | init hClient | announce hClient | refused hClient | ready hClient | starting hClient | talking hClient =>
    rw [hClient] at hLocal
    cases hLocal

theorem Expects.updates (h : Expects c down) (hClient : (∃ ready key, c.suspended = .udpRun ready key) ∨
    ∃ srcId key, c.suspended = .select srcId key) : Updates down := by
  cases h with
  | nothing => exact .live nofun
  | starting _ hRest | talking _ hRest => exact hRest
  | init hOther | announce hOther | refused hOther | ready hOther =>
    rcases hClient with ⟨_, _, hClient⟩ | ⟨_, _, hClient⟩ <;> simp [hOther] at hClient

theorem Joint.eq_of_connect (h : Joint base64 c s keys up down) (hClient : c.suspended = .connect) :
    s.suspended = .awaitHandshake ∧ s.voice = none ∧ keys = [] ∧ up = [] ∧ down = [] := by
  cases h with
  | connecting _ hServer hVoice => exact ⟨hServer, hVoice, rfl, rfl, rfl⟩
  | discovering hOther =>
    rcases hOther with ⟨_, hOther, _⟩ | ⟨_, hOther⟩ <;> simp [hClient] at hOther
  | greeting hOther | greeted hOther | joining hOther | opening hOther | refused hOther
  | announced hOther | answering hOther | establishing hOther | accepted hOther | starting hOther
  | talking hOther => simp [hClient] at hOther

theorem Joint.discovering_of (h : Joint base64 c s keys up down) {sourceId : UInt32}
    (hClient : (∃ announce, c.suspended = .udpSetup announce ∧ announce.sourceId = sourceId) ∨
      ∃ attempt, c.suspended = .discoverIp sourceId attempt) :
    s.voice = none ∧ s.clientId = c.userId ∧ keys = [] ∧ up = [] ∧ down = [] ∧
      ∃ present, s.suspended = .awaitClientUdp c.channelId sourceId present := by
  cases h with
  | @discovering sourceId' hOther present hServer hVoice hId =>
    have hSame : sourceId' = sourceId := by
      rcases hClient with ⟨_, hClient, rfl⟩ | ⟨_, hClient⟩ <;>
        rcases hOther with ⟨_, hOther, rfl⟩ | ⟨_, hOther⟩ <;> simp_all
    exact ⟨hVoice, hId, rfl, rfl, rfl, present, hSame ▸ hServer⟩
  | connecting hOther | greeting hOther | greeted hOther | joining hOther | opening hOther | refused hOther
  | announced hOther | answering hOther | establishing hOther | accepted hOther | starting hOther
  | talking hOther => rcases hClient with ⟨_, hClient, _⟩ | ⟨_, hClient⟩ <;> simp [hOther] at hClient

/-- From `Ready` on, the session has its voice connection and its client sends nothing. -/
theorem Joint.rest_of (h : Joint base64 c s keys up down) {srcId : UInt32} {key : Key}
    (hClient : (∃ ready, c.suspended = .udpRun ready key ∧ ready.srcId = srcId) ∨
      c.suspended = .select srcId key) :
    s.suspended = .select ∧ keys = [key] ∧ up = [] ∧ Rest c s srcId down := by
  cases h with
  | starting hOther hServer hRest =>
    rcases hClient with ⟨_, hClient, rfl⟩ | hClient
    · cases hClient.symm.trans hOther
      exact ⟨hServer, rfl, rfl, hRest⟩
    · cases hClient.symm.trans hOther
  | talking hOther hServer hRest =>
    rcases hClient with ⟨_, hClient, _⟩ | hClient
    · cases hClient.symm.trans hOther
    · cases hClient.symm.trans hOther
      exact ⟨hServer, rfl, rfl, hRest⟩
  | discovering hOther =>
    rcases hClient with ⟨_, hClient, _⟩ | hClient <;>
      rcases hOther with ⟨_, hOther, _⟩ | ⟨_, hOther⟩ <;> simp [hOther] at hClient
  | connecting hOther | greeting hOther | greeted hOther | joining hOther | opening hOther | refused hOther
  | announced hOther | answering hOther | establishing hOther | accepted hOther =>
    rcases hClient with ⟨_, hClient, _⟩ | hClient <;> simp [hOther] at hClient

theorem Agreed.of_client {result : ClientSession × List ClientOutput}
    (h : Agreed base64 result.1 s keys (up ++ result.2.filterMap ClientOutput.sent?) down)
    (hEq : some result = some (c', out)) :
    Agreed base64 c' s keys (up ++ out.filterMap ClientOutput.sent?) down := by
  cases Option.some.inj hEq
  exact h

/-- The client goes on without a message, and its session goes on as before. -/
theorem Agreed.quiet {next : ClientSuspended} (h : Agreed base64 (c.suspend next) s keys up down) :
    Agreed base64 (c.suspend next) s keys (up ++ [].filterMap ClientOutput.sent?) down := by
  rwa [List.filterMap_nil, List.append_nil]

theorem Agreed.attempt (h : Agreed base64 c s keys up down) {sourceId : UInt32}
    (hClient : (∃ announce, c.suspended = .udpSetup announce ∧ announce.sourceId = sourceId) ∨
      ∃ attempt, c.suspended = .discoverIp sourceId attempt) (attempt : Nat) :
    Agreed base64 (c.attempt sourceId attempt).1 s keys
      (up ++ (c.attempt sourceId attempt).2.filterMap ClientOutput.sent?) down := by
  have hLocal : isLocal c.suspended = true := by
    rcases hClient with ⟨_, hClient, _⟩ | ⟨_, hClient⟩ <;> rw [hClient] <;> rfl
  rw [ClientSession.attempt]
  split
  · exact h.fail _ _
  · apply Agreed.quiet
    cases h with
    | both hJoint =>
      obtain ⟨hVoice, hId, rfl, rfl, rfl, present, hServer⟩ := hJoint.discovering_of hClient
      exact .both (.discovering (.inr ⟨attempt + 1, rfl⟩) hServer hVoice hId)
    | clientDone hDone =>
      rcases hClient with ⟨_, hClient, _⟩ | ⟨_, hClient⟩ <;> simp [hClient, isDone] at hDone
    | serverDone hEnded hExpects =>
      rw [hExpects.eq_nil hLocal]
      exact .serverDone hEnded .nothing

theorem Agreed.connected (h : Agreed base64 c s keys up down) (hClient : c.suspended = .connect) :
    Agreed base64 (c.suspend .awaitInitialized) s keys
      (up ++ [.init { userId := c.userId, name := c.name }]) down := by
  cases h with
  | both hJoint =>
    obtain ⟨hServer, hVoice, rfl, rfl, rfl⟩ := hJoint.eq_of_connect hClient
    exact .both (.greeting rfl hServer hVoice)
  | clientDone hDone => simp [hClient, isDone] at hDone
  | serverDone hEnded hExpects =>
    rw [hExpects.eq_nil (by rw [hClient]; rfl)]
    exact .serverDone hEnded .nothing

theorem Agreed.discovered (h : Agreed base64 c s keys up down) {sourceId : UInt32} {attempt : Nat}
    (hClient : c.suspended = .discoverIp sourceId attempt) (announce : WsProto.ClientAnnounce) :
    Agreed base64 (c.suspend .awaitReady) s keys (up ++ [.udpAnnounce announce]) down := by
  cases h with
  | both hJoint =>
    obtain ⟨hVoice, hId, rfl, rfl, rfl, present, hServer⟩ := hJoint.discovering_of (.inr ⟨attempt, hClient⟩)
    exact .both (Joint.answering (c := c.suspend .awaitReady) rfl hServer hVoice hId announce)
  | clientDone hDone => simp [hClient, isDone] at hDone
  | serverDone hEnded hExpects =>
    rw [hExpects.eq_nil (by rw [hClient]; rfl)]
    exact .serverDone hEnded .nothing

theorem Rest.suspend {sourceId : UInt32} (h : Rest c s sourceId down) (next : ClientSuspended) :
    Rest (c.suspend next) s sourceId down := by
  cases h with
  | live hVoice hUpdates => exact Rest.live (c := c.suspend next) hVoice hUpdates
  | finished hVoice hUpdates => exact Rest.finished (c := c.suspend next) hVoice hUpdates

theorem Agreed.ranUdp (h : Agreed base64 c s keys up down) {ready : WsProto.Ready} {key : Key}
    (hClient : c.suspended = .udpRun ready key) :
    Agreed base64 (c.suspend (.select ready.srcId key)) s keys up down := by
  cases h with
  | both hJoint =>
    obtain ⟨hServer, rfl, rfl, hRest⟩ := hJoint.rest_of (.inl ⟨ready, hClient, rfl⟩)
    exact .both (.talking rfl hServer (hRest.suspend _))
  | clientDone hDone => simp [hClient, isDone] at hDone
  | serverDone hEnded hExpects =>
    exact .serverDone hEnded (.talking rfl (hExpects.updates (.inl ⟨_, _, hClient⟩)))

theorem Agreed.ctrlC (h : Agreed base64 c s keys up down) {srcId : UInt32} {key : Key}
    (hClient : c.suspended = .select srcId key) :
    Agreed base64 (c.suspend .stop) s keys (up ++ [.leave]) down := by
  cases h with
  | both hJoint =>
    obtain ⟨hServer, rfl, rfl, _⟩ := hJoint.rest_of (.inr hClient)
    exact .clientDone rfl (.inr (.leave hServer))
  | clientDone hDone => simp [hClient, isDone] at hDone
  | serverDone hEnded hExpects => exact .clientDone rfl (.inl hEnded)

theorem filterMap_sent_voice {α : Type} (f : α → Udp.VoiceEvent) (l : List α) :
    (l.map fun a => ClientOutput.voice (f a)).filterMap ClientOutput.sent? = [] := by
  induction l with
  | nil => rfl
  | cons a l ih => simp [ClientOutput.sent?]

/-- What a client does while it does not read: it sends only what its session will wait for. -/
theorem Agreed.clientStep (h : Agreed base64 c s keys up down) {dead : Bool} {e : ClientSession.Event}
    (hLocal : isClientNext e = false) (hStep : ClientSession.step base64 dead c e = some (c', out)) :
    Agreed base64 c' s keys (up ++ out.filterMap ClientOutput.sent?) down := by
  cases e with
  | nextEvent => cases hLocal
  | connected ok =>
    simp only [ClientSession.step] at hStep
    split at hStep
    · rename_i hClient
      refine Agreed.of_client ?_ hStep
      split
      · exact h.clientSend (h.connected hClient)
      · exact h.fail _ _
    · cases hStep
  | boundUdp ok =>
    simp only [ClientSession.step] at hStep
    split at hStep
    · rename_i announce hClient
      refine Agreed.of_client ?_ hStep
      split
      · exact h.attempt (.inl ⟨announce, hClient, rfl⟩) 0
      · exact h.fail _ _
    · cases hStep
  | discoveredIp result =>
    simp only [ClientSession.step] at hStep
    split at hStep
    · rename_i sourceId attempt hClient
      split at hStep
      · refine Agreed.of_client ?_ hStep
        exact h.clientSend (h.discovered hClient _)
      · refine Agreed.of_client ?_ hStep
        exact h.attempt (.inr ⟨attempt, hClient⟩) attempt
    · cases hStep
  | ranUdp ok =>
    simp only [ClientSession.step] at hStep
    split at hStep
    · rename_i ready key hClient
      refine Agreed.of_client ?_ hStep
      split
      · rw [ClientSession.ranUdp, filterMap_sent_voice, List.append_nil]
        exact h.ranUdp hClient
      · exact h.fail _ _
    · cases hStep
  | ctrlC =>
    simp only [ClientSession.step] at hStep
    split at hStep
    · rename_i srcId key hClient
      exact Agreed.of_client (h.clientSend (h.ctrlC hClient)) hStep
    · cases hStep
  | stopped ok =>
    simp only [ClientSession.step] at hStep
    split at hStep
    · refine Agreed.of_client ?_ hStep
      exact .quiet (.clientDone rfl h.awaits)
    · cases hStep

theorem Agreed.welcomed {initialized : WsProto.Initialized}
    (h : Agreed base64 c s keys up (.init initialized :: down)) (hClient : c.suspended = .awaitInitialized) :
    Agreed base64 (c.suspend .awaitVoiceUdp) s keys (up ++ [.join { channelId := c.channelId }]) down := by
  cases h with
  | both hJoint =>
    cases hJoint with
    | greeted _ hServer hVoice hId => exact .both (.joining rfl hServer hVoice hId)
    | starting hOther | talking hOther => cases hClient.symm.trans hOther
  | clientDone hDone => simp [hClient, isDone] at hDone
  | serverDone hEnded hExpects =>
    refine .serverDone hEnded ?_
    cases hExpects with
    | init => exact .nothing
    | starting hOther | talking hOther => cases hClient.symm.trans hOther

theorem Agreed.announced {announce : WsProto.ServerAnnounce}
    (h : Agreed base64 c s keys up (.udpAnnounce announce :: down)) (hClient : c.suspended = .awaitVoiceUdp) :
    Agreed base64 (c.suspend (.udpSetup announce)) s keys up down := by
  cases h with
  | both hJoint =>
    cases hJoint with
    | announced _ hServer hVoice hId =>
      exact .both (Joint.discovering (c := c.suspend (.udpSetup announce)) (.inl ⟨announce, rfl, rfl⟩)
        hServer hVoice hId)
    | starting hOther | talking hOther => cases hClient.symm.trans hOther
  | clientDone hDone => simp [hClient, isDone] at hDone
  | serverDone hEnded hExpects =>
    refine .serverDone hEnded ?_
    cases hExpects with
    | announce => exact .nothing
    | starting hOther | talking hOther => cases hClient.symm.trans hOther

theorem Agreed.ready {ready : WsProto.Ready} (h : Agreed base64 c s keys up (.ready ready :: down))
    (hClient : c.suspended = .awaitReady) :
    Agreed base64 (c.ready base64 ready).1 s keys
      (up ++ (c.ready base64 ready).2.filterMap ClientOutput.sent?) down := by
  unfold ClientSession.ready
  split
  · rename_i key hDecode
    split
    · apply Agreed.quiet
      cases h with
      | both hJoint =>
        cases hJoint with
        | accepted _ hServer hKey hRest =>
          rw [hKey, base64.parse_display] at hDecode
          cases hDecode
          exact .both (.starting rfl hServer (hRest.suspend _))
        | starting hOther | talking hOther => cases hClient.symm.trans hOther
      | clientDone hDone => simp [hClient, isDone] at hDone
      | serverDone hEnded hExpects =>
        refine .serverDone hEnded ?_
        cases hExpects with
        | ready _ _ hRest => exact .starting rfl hRest
        | starting hOther | talking hOther => cases hClient.symm.trans hOther
    · exact h.fail _ _
  · exact h.fail _ _

/-- An update leaves the client where it is. -/
theorem Agreed.updated {m : WsProto.ServerEvent} (h : Agreed base64 c s keys up (m :: down))
    {srcId : UInt32} {key : Key} (hClient : c.suspended = .select srcId key)
    (hUpdate : isUpdate m = true) : Agreed base64 c s keys up down := by
  cases h with
  | both hJoint =>
    obtain ⟨hServer, rfl, rfl, hRest⟩ := hJoint.rest_of (.inr hClient)
    rcases hRest.tail with ⟨_, hTail⟩ | ⟨rfl, _⟩
    · exact .both (.talking hClient hServer hTail)
    · cases hUpdate
  | clientDone hDone => simp [hClient, isDone] at hDone
  | serverDone hEnded hExpects =>
    rcases (hExpects.updates (.inr ⟨srcId, key, hClient⟩)).cons with ⟨_, hTail⟩ | ⟨rfl, _⟩
    · exact .serverDone hEnded (.talking hClient hTail)
    · cases hUpdate

/-- What a client does with a message that comes next. -/
theorem Agreed.clientNext {m : WsProto.ServerEvent} (h : Agreed base64 c s keys up (m :: down)) {dead : Bool}
    (hStep : ClientSession.step base64 dead c (.nextEvent (some m)) = some (c', out)) :
    Agreed base64 c' s keys (up ++ out.filterMap ClientOutput.sent?) down := by
  simp only [ClientSession.step, ClientSession.nextEvent] at hStep
  split at hStep
  · rename_i hClient
    split at hStep
    · refine Agreed.of_client ?_ hStep
      exact h.clientSend (h.welcomed hClient)
    · exact Agreed.of_client (h.fail _ _) hStep
  · rename_i hClient
    split at hStep
    · exact Agreed.of_client (.quiet (h.announced hClient)) hStep
    · exact Agreed.of_client (h.fail _ _) hStep
  · rename_i hClient
    split at hStep
    · exact Agreed.of_client (h.ready hClient) hStep
    · exact Agreed.of_client (h.fail _ _) hStep
  · rename_i srcId key hClient
    have hExpected := h.clientExpects (by rw [hClient]; rfl)
    rw [hClient] at hExpected
    refine Agreed.of_client ?_ hStep
    cases m with
    | joined joined | left left =>
      have hUpdated : Agreed base64 c s keys (up ++ []) down := by
        rw [List.append_nil]
        exact h.updated hClient rfl
      exact hUpdated
    | disconnected => exact h.fail _ _
    | init | keepalive | ready | udpAnnounce | joinError => cases hExpected
  · cases hStep

theorem Agreed.clientEnd (h : Agreed base64 c s keys up down) {dead : Bool}
    (hStep : ClientSession.step base64 dead c (.nextEvent none) = some (c', out)) :
    Agreed base64 c' s keys (up ++ out.filterMap ClientOutput.sent?) down := by
  simp only [ClientSession.step] at hStep
  split at hStep
  · exact Agreed.of_client (h.fail _ _) hStep
  · cases hStep

end ClientSteps

end Voices.Control
