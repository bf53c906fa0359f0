import Voices.Gateway.LocalChannel
import Voices.Gateway.Session
import Voices.VoiceInstance.Host
import Voices.WsProto.Messages

/-!
# What a client is told

`session.rs` once more, with the events that it sends to its client. A session
waits for its client, its channel and its voice connection at once, and for one
thing after the other inside `initialize_voice_connection`. Whatever it is given
in whatever order, the client is told of one voice connection at a time.
-/

namespace Voices.Gateway.Conversation

open Semantics VoiceServer VoiceInstance

structure VoiceHandle where
  clientId : Uuid
  channelId : Uuid
  sourceId : UInt32
  deriving DecidableEq

/-- Where the session is suspended: at its handshake, in the `select!` of `run_session`, or in
`initialize_voice_connection` at the call that has its name. -/
inductive Suspended where
  | awaitHandshake
  | select
  | getOrInit (channelId : Uuid)
  | openConnection (channelId : Uuid)
  | reassignVoice (channelId : Uuid)
  | reopenConnection (channelId : Uuid)
  | join (channelId : Uuid) (udpAddr : SocketAddr) (info : ClientInfo)
  | listMembers (channelId : Uuid) (udpAddr : SocketAddr) (info : ClientInfo)
  | awaitClientUdp (channelId : Uuid) (sourceId : UInt32) (present : List ClientInfo)
  | establishSession (request : EstablishSession) (sourceId : UInt32) (present : List ClientInfo)
  | ended
  deriving DecidableEq

/-- The client is known after the handshake. `dead` says that the receiver of `ctl.out` is gone. -/
structure ServerSession where
  clientId : Uuid
  clientName : String
  suspended : Suspended
  voice : Option VoiceHandle
  dead : Bool
  deriving DecidableEq

/-- What a session that is suspended gets: `none` from its client is the end of the client's
stream, and the other results are those of the calls. -/
inductive Event where
  | receiverGone
  | handshake (event : Option WsProto.ClientEvent) (sessionId : Uuid)
  | client (event : Option WsProto.ClientEvent)
  | statusEnded
  | chanEvent (event : ChannelEvent)
  | gotChannel (result : Except String Bool)
  | openedConnection (result : Except VoiceHostError ConnectionData)
  | reassigned (ok : Bool)
  | joined (ok : Bool)
  | listedMembers (result : Option (List ClientInfo))
  | establishedSession (result : Except VoiceHostError SessionData)

namespace ServerSession

def new : ServerSession :=
  { clientId := 0, clientName := "", suspended := .awaitHandshake, voice := none, dead := false }

def suspend (s : ServerSession) (suspended : Suspended) : ServerSession := { s with suspended }

/-- The session returns, with an error or without, and is dropped. -/
def finish (s : ServerSession) : ServerSession := { s with suspended := .ended, voice := none }

/-- A send whose failure ends the session. -/
def send (s next : ServerSession) (event : WsProto.ServerEvent) :
    ServerSession × List WsProto.ServerEvent :=
  if s.dead then (s.finish, []) else (next, [event])

/-- The result of the send is ignored. -/
def stopVoice (s : ServerSession) : ServerSession × List WsProto.ServerEvent :=
  ({ s with voice := none }, if s.voice.isSome && !s.dead then [.disconnected] else [])

/-- A keepalive runs into the `unreachable!`. -/
def handleEvent (s : ServerSession) :
    WsProto.ClientEvent → ServerSession × List WsProto.ServerEvent
  | .join join => (s.stopVoice.1.suspend (.getOrInit join.channelId), s.stopVoice.2)
  | .keepalive _ => (s.finish, [])
  | .init _ => s.stopVoice
  | .disconnect => s.stopVoice
  | .leave => s.stopVoice
  | .udpAnnounce _ => s.stopVoice

/-- The branch of `run_session` on the client. -/
def nextEvent (s : ServerSession) :
    Option WsProto.ClientEvent → ServerSession × List WsProto.ServerEvent
  | some event => s.handleEvent event
  | none => (s.stopVoice.1.finish, s.stopVoice.2)

def initialized (s : ServerSession) (sessionId : Uuid) :
    Option WsProto.ClientEvent → ServerSession × List WsProto.ServerEvent
  | some (.init init) =>
    s.send { s with clientId := init.userId, clientName := init.name, suspended := .select }
      (.init { sessionId })
  | _ => (s.finish, [])

def chanMessage (s : ServerSession) (event : ChannelEvent) : Option WsProto.ServerEvent :=
  (handleChanEvent s.clientId event).map fun
    | .joined user sourceId => .joined { user, sourceId }
    | .left user sourceId => .left { user, sourceId }

def chanEvent (s : ServerSession) (event : ChannelEvent) : ServerSession × List WsProto.ServerEvent :=
  match s.chanMessage event with
  | some message => s.send s message
  | none => (s, [])

/-- The result of `get_or_init`: an error, no channel, or the channel. -/
def gotChannel (s : ServerSession) (channelId : Uuid) :
    Except String Bool → ServerSession × List WsProto.ServerEvent
  | .ok true => (s.suspend (.openConnection channelId), [])
  | .ok false => s.send (s.suspend .select) (.joinError { roomId := channelId })
  | .error _ => (s.finish, [])

def opened (s : ServerSession) (channelId : Uuid) (data : ConnectionData) : ServerSession :=
  s.suspend (.join channelId data.sock
    { clientId := s.clientId, sourceId := data.sourceId, name := s.clientName })

def openedConnection (s : ServerSession) (channelId : Uuid) :
    Except VoiceHostError ConnectionData → ServerSession
  | .ok data => s.opened channelId data
  | .error (.notFound _) => s.suspend (.reassignVoice channelId)
  | .error (.other _) => s.finish

def reopenedConnection (s : ServerSession) (channelId : Uuid) :
    Except VoiceHostError ConnectionData → ServerSession
  | .ok data => s.opened channelId data
  | .error _ => s.finish

def listedMembers (s : ServerSession) (channelId : Uuid) (udpAddr : SocketAddr) (info : ClientInfo) :
    Option (List ClientInfo) → ServerSession × List WsProto.ServerEvent
  | some present =>
    s.send (s.suspend (.awaitClientUdp channelId info.sourceId present))
      (.udpAnnounce { ip := udpAddr.ip, port := udpAddr.port, sourceId := info.sourceId })
  | none => (s.finish, [])

/-- `await_client_udp` with the check of the address that follows. -/
def clientUdp (s : ServerSession) (channelId : Uuid) (sourceId : UInt32) (present : List ClientInfo) :
    Option WsProto.ClientEvent → ServerSession
  | some (.udpAnnounce announce) =>
    if isUnspecified announce.ip then s.finish
    else
      s.suspend (.establishSession
        { channelId, clientId := s.clientId, clientAddr := ⟨announce.ip, announce.port⟩ } sourceId present)
  | _ => s.finish

/-- `base64` is the standard encoding of the key. -/
def ready (base64 : List UInt8 → String) (channelId : Uuid) (sourceId : UInt32)
    (present : List ClientInfo) (data : SessionData) : WsProto.Ready :=
  { id := channelId, srcId := sourceId, cryptKey := base64 data.cryptKey
    present := present.map fun info => { user := info.name, sourceId := info.sourceId } }

def establishedSession (base64 : List UInt8 → String) (s : ServerSession) (request : EstablishSession)
    (sourceId : UInt32) (present : List ClientInfo) :
    Except VoiceHostError SessionData → ServerSession × List WsProto.ServerEvent
  | .ok data =>
    s.send
      { s with
        suspended := .select
        voice := some { clientId := s.clientId, channelId := request.channelId, sourceId } }
      (.ready (ready base64 request.channelId sourceId present data))
  | .error _ => (s.finish, [])

def step (base64 : List UInt8 → String) (s : ServerSession) :
    Event → Option (ServerSession × List WsProto.ServerEvent)
  | .receiverGone => some ({ s with dead := true }, [])
  | .handshake event sessionId =>
    match s.suspended with
    | .awaitHandshake => some (s.initialized sessionId event)
    | _ => none
  | .client event =>
    match s.suspended with
    | .select => some (s.nextEvent event)
    | .awaitClientUdp channelId sourceId present =>
      some (s.clientUdp channelId sourceId present event, [])
    | _ => none
  | .statusEnded =>
    match s.suspended, s.voice with
    | .select, some _ => some (s.send { s with voice := none } .disconnected)
    | _, _ => none
  | .chanEvent event =>
    match s.suspended, s.voice with
    | .select, some _ => some (s.chanEvent event)
    | _, _ => none
  | .gotChannel result =>
    match s.suspended with
    | .getOrInit channelId => some (s.gotChannel channelId result)
    | _ => none
  | .openedConnection result =>
    match s.suspended with
    | .openConnection channelId => some (s.openedConnection channelId result, [])
    | .reopenConnection channelId => some (s.reopenedConnection channelId result, [])
    | _ => none
  | .reassigned ok =>
    match s.suspended with
    | .reassignVoice channelId =>
      some (if ok then s.suspend (.reopenConnection channelId) else s.finish, [])
    | _ => none
  | .joined ok =>
    match s.suspended with
    | .join channelId udpAddr info =>
      some (if ok then s.suspend (.listMembers channelId udpAddr info) else s.finish, [])
    | _ => none
  | .listedMembers result =>
    match s.suspended with
    | .listMembers channelId udpAddr info => some (s.listedMembers channelId udpAddr info result)
    | _ => none
  | .establishedSession result =>
    match s.suspended with
    | .establishSession request sourceId present =>
      some (s.establishedSession base64 request sourceId present result)
    | _ => none

end ServerSession

def isUpdate : WsProto.ServerEvent → Bool
  | .joined _ => true
  | .left _ => true
  | _ => false

/-- A failed join, or a voice connection from its announcement to its end. -/
inductive Block : List WsProto.ServerEvent → Prop where
  | joinError (error : WsProto.JoinError) : Block [.joinError error]
  | voice (announce : WsProto.ServerAnnounce) (ready : WsProto.Ready)
      (updates : List WsProto.ServerEvent) (hUpdates : ∀ u ∈ updates, isUpdate u = true) :
      Block (.udpAnnounce announce :: .ready ready :: (updates ++ [.disconnected]))

/-- The session protocol: an `Init`, then blocks. -/
inductive Protocol : List WsProto.ServerEvent → Prop where
  | init (initialized : WsProto.Initialized) : Protocol [.init initialized]
  | block {told block : List WsProto.ServerEvent} (hTold : Protocol told) (hBlock : Block block) :
      Protocol (told ++ block)

inductive Stage where
  | start
  | between
  | announced
  | talking

/-- How far a client that was told `tr` is in the protocol. -/
inductive Reached : Stage → List WsProto.ServerEvent → Prop where
  | start : Reached .start []
  | between {told : List WsProto.ServerEvent} (hTold : Protocol told) : Reached .between told
  | announced {told : List WsProto.ServerEvent} (hTold : Protocol told)
      (announce : WsProto.ServerAnnounce) : Reached .announced (told ++ [.udpAnnounce announce])
  | talking {told : List WsProto.ServerEvent} (hTold : Protocol told)
      (announce : WsProto.ServerAnnounce) (ready : WsProto.Ready)
      (updates : List WsProto.ServerEvent) (hUpdates : ∀ u ∈ updates, isUpdate u = true) :
      Reached .talking (told ++ .udpAnnounce announce :: .ready ready :: updates)

theorem Reached.protocol {stage : Stage} {tr : List WsProto.ServerEvent} (h : Reached stage tr) :
    ∃ rest, Protocol (tr ++ rest) := by
  cases h with
  | start => exact ⟨_, .init ⟨0⟩⟩
  | between hTold => exact ⟨[], by rwa [List.append_nil]⟩
  | announced hTold announce =>
    refine ⟨[.ready ⟨0, 0, [], ""⟩, .disconnected], ?_⟩
    rw [List.append_assoc]
    exact .block hTold (.voice announce ⟨0, 0, [], ""⟩ [] nofun)
  | talking hTold announce ready updates hUpdates =>
    refine ⟨[.disconnected], ?_⟩
    rw [List.append_assoc]
    exact .block hTold (.voice announce ready updates hUpdates)

theorem Reached.disconnected {tr : List WsProto.ServerEvent} (h : Reached .talking tr) :
    Reached .between (tr ++ [WsProto.ServerEvent.disconnected]) := by
  cases h with
  | talking hTold announce ready updates hUpdates =>
    rw [List.append_assoc]
    exact .between (.block hTold (.voice announce ready updates hUpdates))

theorem Reached.update {tr : List WsProto.ServerEvent} {event : WsProto.ServerEvent}
    (h : Reached .talking tr) (hUpdate : isUpdate event = true) :
    Reached .talking (tr ++ [event]) := by
  cases h with
  | talking hTold announce ready updates hUpdates =>
    rw [List.append_assoc]
    refine .talking hTold announce ready (updates ++ [event]) fun u hMem => ?_
    rcases List.mem_append.mp hMem with hOld | hNew
    · exact hUpdates u hOld
    · rwa [List.mem_singleton.mp hNew]

theorem Reached.ready {tr : List WsProto.ServerEvent} (h : Reached .announced tr)
    (ready : WsProto.Ready) : Reached .talking (tr ++ [WsProto.ServerEvent.ready ready]) := by
  cases h with
  | announced hTold announce =>
    rw [List.append_assoc]
    exact .talking hTold announce ready [] nofun

theorem Reached.announce {tr : List WsProto.ServerEvent} (h : Reached .between tr)
    (announce : WsProto.ServerAnnounce) :
    Reached .announced (tr ++ [WsProto.ServerEvent.udpAnnounce announce]) := by
  cases h with
  | between hTold => exact .announced hTold announce

theorem Reached.joinError {tr : List WsProto.ServerEvent} (h : Reached .between tr)
    (error : WsProto.JoinError) :
    Reached .between (tr ++ [WsProto.ServerEvent.joinError error]) := by
  cases h with
  | between hTold => exact .between (.block hTold (.joinError error))

theorem Reached.init {tr : List WsProto.ServerEvent} (h : Reached .start tr)
    (initialized : WsProto.Initialized) :
    Reached .between (tr ++ [WsProto.ServerEvent.init initialized]) := by
  cases h with
  | start => exact .between (.init initialized)

namespace ServerSession

def stage (s : ServerSession) : Stage :=
  match s.voice, s.suspended with
  | some _, _ => .talking
  | none, .awaitHandshake => .start
  | none, .awaitClientUdp _ _ _ => .announced
  | none, .establishSession _ _ _ => .announced
  | none, _ => .between

/-- The client is where the session is, as long as it can be told anything. -/
structure Synced (s : ServerSession) (tr : List WsProto.ServerEvent) : Prop where
  voice : s.voice.isSome = true → s.suspended = .select
  told : ∃ stage, Reached stage tr
  current : s.dead = false → s.suspended ≠ .ended → Reached s.stage tr

variable {s next : ServerSession} {tr : List WsProto.ServerEvent}

theorem finish_synced (hTold : ∃ stage, Reached stage tr) : Synced s.finish (tr ++ []) := by
  rw [List.append_nil]
  exact ⟨nofun, hTold, fun _ hEnded => absurd rfl hEnded⟩

theorem send_synced {event : WsProto.ServerEvent} (hTold : ∃ stage, Reached stage tr)
    (hVoice : next.voice.isSome = true → next.suspended = .select)
    (hNext : s.dead = false → Reached next.stage (tr ++ [event])) :
    Synced (s.send next event).1 (tr ++ (s.send next event).2) := by
  rw [send]
  cases hGone : s.dead with
  | true => exact finish_synced hTold
  | false => exact ⟨hVoice, ⟨_, hNext hGone⟩, fun _ _ => hNext hGone⟩

/-- Nothing is sent, and the session goes on in the same stage. -/
theorem suspend_synced (hSynced : Synced s tr) (hRunning : s.suspended ≠ .ended) {suspended : Suspended}
    (hVoice : s.voice = none) (hStage : (s.suspend suspended).stage = s.stage) :
    Synced (s.suspend suspended) (tr ++ []) := by
  rw [List.append_nil]
  refine ⟨fun hSome => ?_, hSynced.told, fun hDead _ => ?_⟩
  · rw [suspend, hVoice] at hSome
    cases hSome
  · rw [hStage]
    exact hSynced.current hDead hRunning

theorem stopVoice_reached (hSynced : Synced s tr) (hSelect : s.suspended = .select) :
    (∃ stage, Reached stage (tr ++ s.stopVoice.2)) ∧
      (s.dead = false → Reached .between (tr ++ s.stopVoice.2)) := by
  have hRunning : s.suspended ≠ .ended := by simp [hSelect]
  rw [stopVoice]
  cases hVoice : s.voice with
  | none =>
    have hStage : s.stage = .between := by rw [stage, hVoice, hSelect]
    rw [show (if (none : Option VoiceHandle).isSome && !s.dead then
      [WsProto.ServerEvent.disconnected] else []) = [] from rfl, List.append_nil]
    exact ⟨hSynced.told, fun hAlive => hStage ▸ hSynced.current hAlive hRunning⟩
  | some handle =>
    have hStage : s.stage = .talking := by rw [stage, hVoice]
    cases hDead : s.dead with
    | true => exact ⟨by simpa using hSynced.told, nofun⟩
    | false =>
      have hNext := (hStage ▸ hSynced.current hDead hRunning).disconnected
      exact ⟨⟨_, hNext⟩, fun _ => hNext⟩

theorem stopVoice_synced (hSynced : Synced s tr) (hSelect : s.suspended = .select)
    {suspended : Suspended} (hStage : (s.stopVoice.1.suspend suspended).stage = .between) :
    Synced (s.stopVoice.1.suspend suspended) (tr ++ s.stopVoice.2) := by
  obtain ⟨hTold, hBetween⟩ := stopVoice_reached hSynced hSelect
  refine ⟨nofun, hTold, fun hAlive _ => ?_⟩
  rw [hStage]
  exact hBetween hAlive

theorem stopVoice_select (hSynced : Synced s tr) (hSelect : s.suspended = .select) :
    Synced s.stopVoice.1 (tr ++ s.stopVoice.2) := by
  have hSame : s.stopVoice.1.suspend .select = s.stopVoice.1 := by
    rw [suspend, stopVoice, ← hSelect]
  rw [← hSame]
  exact stopVoice_synced hSynced hSelect rfl

theorem nextEvent_synced (hSynced : Synced s tr) (hSelect : s.suspended = .select)
    (event : Option WsProto.ClientEvent) :
    Synced (s.nextEvent event).1 (tr ++ (s.nextEvent event).2) := by
  cases event with
  | none =>
    obtain ⟨hTold, _⟩ := stopVoice_reached hSynced hSelect
    have hFinish := finish_synced (s := s.stopVoice.1) hTold
    rwa [List.append_nil] at hFinish
  | some event =>
    cases event with
    | join join => exact stopVoice_synced hSynced hSelect rfl
    | keepalive ka => exact finish_synced hSynced.told
    | init _ | disconnect | leave | udpAnnounce _ => exact stopVoice_select hSynced hSelect

theorem isUpdate_chanMessage {event : ChannelEvent} {message : WsProto.ServerEvent}
    (h : s.chanMessage event = some message) : isUpdate message = true := by
  obtain ⟨told, _, rfl⟩ := Option.map_eq_some_iff.mp h
  cases told <;> rfl

theorem voice_eq_none (hSynced : Synced s tr) (hBusy : s.suspended ≠ .select) : s.voice = none := by
  cases hVoice : s.voice with
  | none => rfl
  | some handle => exact absurd (hSynced.voice (by rw [hVoice]; rfl)) hBusy

/-- A step inside `initialize_voice_connection`: the session has no voice connection. -/
theorem reached_of_busy (stage : Stage) (hSynced : Synced s tr) (hBusy : s.suspended ≠ .select)
    (hRunning : s.suspended ≠ .ended) (hStage : s.voice = none → s.stage = stage)
    (hAlive : s.dead = false) : Reached stage tr := by
  rw [← hStage (voice_eq_none hSynced hBusy)]
  exact hSynced.current hAlive hRunning

theorem initialized_synced (hSynced : Synced s tr) (hAt : s.suspended = .awaitHandshake)
    (sessionId : Uuid) (event : Option WsProto.ClientEvent) :
    Synced (s.initialized sessionId event).1 (tr ++ (s.initialized sessionId event).2) := by
  have hVoice : s.voice = none := voice_eq_none hSynced (by simp [hAt])
  unfold initialized
  split
  · refine send_synced hSynced.told (fun _ => rfl) fun hAlive => ?_
    have hStart := reached_of_busy .start hSynced (by simp [hAt]) (by simp [hAt])
      (fun hNone => by rw [stage, hNone, hAt]) hAlive
    rw [stage, hVoice]
    exact hStart.init _
  · exact finish_synced hSynced.told

theorem clientUdp_synced (hSynced : Synced s tr) {channelId : Uuid} {sourceId : UInt32}
    {present : List ClientInfo} (hAt : s.suspended = .awaitClientUdp channelId sourceId present)
    (event : Option WsProto.ClientEvent) :
    Synced (s.clientUdp channelId sourceId present event) (tr ++ []) := by
  have hVoice : s.voice = none := voice_eq_none hSynced (by simp [hAt])
  unfold clientUdp
  split
  · split
    · exact finish_synced hSynced.told
    · exact suspend_synced hSynced (by simp [hAt]) hVoice (by simp [stage, suspend, hVoice, hAt])
  · exact finish_synced hSynced.told

theorem statusEnded_synced (hSynced : Synced s tr) (hAt : s.suspended = .select)
    {handle : VoiceHandle} (hVoice : s.voice = some handle) :
    Synced (s.send { s with voice := none } .disconnected).1
      (tr ++ (s.send { s with voice := none } .disconnected).2) := by
  refine send_synced hSynced.told nofun fun hAlive => ?_
  have hTalking := hSynced.current hAlive (by simp [hAt])
  rw [stage, hVoice] at hTalking
  rw [stage, hAt]
  exact hTalking.disconnected

theorem chanEvent_synced (hSynced : Synced s tr) (hAt : s.suspended = .select)
    {handle : VoiceHandle} (hVoice : s.voice = some handle) (event : ChannelEvent) :
    Synced (s.chanEvent event).1 (tr ++ (s.chanEvent event).2) := by
  unfold chanEvent
  split
  · rename_i message hMessage
    refine send_synced hSynced.told hSynced.voice fun hAlive => ?_
    have hTalking := hSynced.current hAlive (by simp [hAt])
    rw [stage, hVoice] at hTalking ⊢
    exact hTalking.update (isUpdate_chanMessage hMessage)
  · rwa [List.append_nil]

theorem gotChannel_synced (hSynced : Synced s tr) {channelId : Uuid}
    (hAt : s.suspended = .getOrInit channelId) (result : Except String Bool) :
    Synced (s.gotChannel channelId result).1 (tr ++ (s.gotChannel channelId result).2) := by
  have hVoice : s.voice = none := voice_eq_none hSynced (by simp [hAt])
  unfold gotChannel
  split
  · exact suspend_synced hSynced (by simp [hAt]) hVoice (by simp [stage, suspend, hVoice, hAt])
  · refine send_synced hSynced.told (fun _ => rfl) fun hAlive => ?_
    have hBetween := reached_of_busy .between hSynced (by simp [hAt]) (by simp [hAt])
      (fun hNone => by rw [stage, hNone, hAt]) hAlive
    rw [stage, suspend, hVoice]
    exact hBetween.joinError _
  · exact finish_synced hSynced.told

theorem openedConnection_synced (hSynced : Synced s tr) {channelId : Uuid}
    (hAt : s.suspended = .openConnection channelId) (result : Except VoiceHostError ConnectionData) :
    Synced (s.openedConnection channelId result) (tr ++ []) := by
  have hVoice : s.voice = none := voice_eq_none hSynced (by simp [hAt])
  unfold openedConnection
  split
  · exact suspend_synced hSynced (by simp [hAt]) hVoice (by simp [stage, suspend, hVoice, hAt])
  · exact suspend_synced hSynced (by simp [hAt]) hVoice (by simp [stage, suspend, hVoice, hAt])
  · exact finish_synced hSynced.told

theorem reopenedConnection_synced (hSynced : Synced s tr) {channelId : Uuid}
    (hAt : s.suspended = .reopenConnection channelId) (result : Except VoiceHostError ConnectionData) :
    Synced (s.reopenedConnection channelId result) (tr ++ []) := by
  have hVoice : s.voice = none := voice_eq_none hSynced (by simp [hAt])
  unfold reopenedConnection
  split
  · exact suspend_synced hSynced (by simp [hAt]) hVoice (by simp [stage, suspend, hVoice, hAt])
  · exact finish_synced hSynced.told

/-- A call without an answer of its own: the session goes on in the same stage, or ends. -/
theorem call_synced (hSynced : Synced s tr) (hBusy : s.suspended ≠ .select)
    (hRunning : s.suspended ≠ .ended) {suspended : Suspended}
    (hStage : s.voice = none → (s.suspend suspended).stage = s.stage) (ok : Bool) :
    Synced (if ok then s.suspend suspended else s.finish) (tr ++ []) := by
  have hVoice : s.voice = none := voice_eq_none hSynced hBusy
  split
  · exact suspend_synced hSynced hRunning hVoice (hStage hVoice)
  · exact finish_synced hSynced.told

theorem listedMembers_synced (hSynced : Synced s tr) {channelId : Uuid} {udpAddr : SocketAddr}
    {info : ClientInfo} (hAt : s.suspended = .listMembers channelId udpAddr info)
    (result : Option (List ClientInfo)) :
    Synced (s.listedMembers channelId udpAddr info result).1
      (tr ++ (s.listedMembers channelId udpAddr info result).2) := by
  have hVoice : s.voice = none := voice_eq_none hSynced (by simp [hAt])
  unfold listedMembers
  split
  · refine send_synced hSynced.told (fun hSome => ?_) fun hAlive => ?_
    · rw [suspend, hVoice] at hSome
      cases hSome
    · have hBetween := reached_of_busy .between hSynced (by simp [hAt]) (by simp [hAt])
        (fun hNone => by rw [stage, hNone, hAt]) hAlive
      rw [stage, suspend, hVoice]
      exact hBetween.announce _
  · exact finish_synced hSynced.told

theorem establishedSession_synced {base64 : List UInt8 → String} (hSynced : Synced s tr)
    {request : EstablishSession} {sourceId : UInt32} {present : List ClientInfo}
    (hAt : s.suspended = .establishSession request sourceId present)
    (result : Except VoiceHostError SessionData) :
    Synced (s.establishedSession base64 request sourceId present result).1
      (tr ++ (s.establishedSession base64 request sourceId present result).2) := by
  unfold establishedSession
  split
  · refine send_synced hSynced.told (fun _ => rfl) fun hAlive => ?_
    have hAnnounced := reached_of_busy .announced hSynced (by simp [hAt]) (by simp [hAt])
      (fun hNone => by rw [stage, hNone, hAt]) hAlive
    exact hAnnounced.ready _
  · exact finish_synced hSynced.told

theorem Synced.of_eq {result : ServerSession × List WsProto.ServerEvent} {s' : ServerSession}
    {o : List WsProto.ServerEvent} (h : Synced result.1 (tr ++ result.2))
    (hEq : some result = some (s', o)) : Synced s' (tr ++ o) := by
  cases Option.some.inj hEq
  exact h

theorem synced_step {base64 : List UInt8 → String} {e : Event} {s' : ServerSession}
    {o : List WsProto.ServerEvent} (hSynced : Synced s tr)
    (hStep : step base64 s e = some (s', o)) : Synced s' (tr ++ o) := by
  cases e with
  | receiverGone =>
    cases hStep
    exact ⟨hSynced.voice, by simpa using hSynced.told, nofun⟩
  | handshake event sessionId =>
    simp only [step] at hStep
    split at hStep
    · rename_i hAt
      exact (initialized_synced hSynced hAt sessionId event).of_eq hStep
    · cases hStep
  | client event =>
    simp only [step] at hStep
    split at hStep
    · rename_i hAt
      exact (nextEvent_synced hSynced hAt event).of_eq hStep
    · rename_i hAt
      exact (clientUdp_synced hSynced hAt event).of_eq hStep
    · cases hStep
  | statusEnded =>
    simp only [step] at hStep
    split at hStep
    · rename_i hAt hVoice
      exact (statusEnded_synced hSynced hAt hVoice).of_eq hStep
    · cases hStep
  | chanEvent event =>
    simp only [step] at hStep
    split at hStep
    · rename_i hAt hVoice
      exact (chanEvent_synced hSynced hAt hVoice event).of_eq hStep
    · cases hStep
  | gotChannel result =>
    simp only [step] at hStep
    split at hStep
    · rename_i hAt
      exact (gotChannel_synced hSynced hAt result).of_eq hStep
    · cases hStep
  | openedConnection result =>
    simp only [step] at hStep
    split at hStep
    · rename_i hAt
      exact (openedConnection_synced hSynced hAt result).of_eq hStep
    · rename_i hAt
      exact (reopenedConnection_synced hSynced hAt result).of_eq hStep
    · cases hStep
  | reassigned ok =>
    simp only [step] at hStep
    split at hStep
    · rename_i hAt
      refine (call_synced hSynced (by simp [hAt]) (by simp [hAt]) ?_ ok).of_eq hStep
      exact fun hVoice => by simp [stage, suspend, hVoice, hAt]
    · cases hStep
  | joined ok =>
    simp only [step] at hStep
    split at hStep
    · rename_i hAt
      refine (call_synced hSynced (by simp [hAt]) (by simp [hAt]) ?_ ok).of_eq hStep
      exact fun hVoice => by simp [stage, suspend, hVoice, hAt]
    · cases hStep
  | listedMembers result =>
    simp only [step] at hStep
    split at hStep
    · rename_i hAt
      exact (listedMembers_synced hSynced hAt result).of_eq hStep
    · cases hStep
  | establishedSession result =>
    simp only [step] at hStep
    split at hStep
    · rename_i hAt
      exact (establishedSession_synced hSynced hAt result).of_eq hStep
    · cases hStep

/-- Whatever a session is given, what it has told its client is the beginning of a
conversation by the protocol. -/
theorem told_follows_protocol {base64 : List UInt8 → String} {es : List Event}
    (hRun : Machine.run (step base64) new es = some (s, tr)) : ∃ rest, Protocol (tr ++ rest) := by
  have hNew : Synced new [] := ⟨nofun, ⟨_, .start⟩, fun _ _ => Reached.start⟩
  have hSynced : Synced s tr := Machine.run_induction (P := Synced) hNew
    (fun _ _ _ _ _ hSynced hStep => synced_step hSynced hStep) hRun
  obtain ⟨stage, hReached⟩ := hSynced.told
  exact hReached.protocol

/-- A client that joins, is told of another's arrival, and disconnects. -/
def happyLifecycle : List Event :=
  [.handshake (some (.init ⟨1, "a"⟩)) 9, .client (some (.join ⟨7⟩)), .gotChannel (.ok true),
    .openedConnection (.ok ⟨⟨.v4 0x7f000001#32, 33330⟩, 3⟩), .joined true, .listedMembers (some []),
    .client (some (.udpAnnounce ⟨.v4 0x7f000001#32, 5000⟩)), .establishedSession (.ok ⟨[]⟩),
    .chanEvent ⟨2, 4, .joined "b"⟩, .client (some .disconnect), .client none]

theorem told_follows_protocol_of_happyLifecycle :
    ∃ s tr, Machine.run (step fun _ => "") new happyLifecycle = some (s, tr) ∧ tr.length = 5 ∧
      ∃ rest, Protocol (tr ++ rest) := by
  have hRun : Machine.run (step fun _ => "") new happyLifecycle = some (_, _) := rfl
  exact ⟨_, _, hRun, rfl, told_follows_protocol hRun⟩

end ServerSession

end Voices.Gateway.Conversation
