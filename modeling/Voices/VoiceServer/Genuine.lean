import Voices.VoiceServer.Handlers
import Voices.VoiceServer.Relay
import Voices.VoiceServer.Sizes
import Voices.VoiceServer.StatusOrder

/-!
# Where voice comes from and where it goes

What the outside does to a voice channel is given by `Facts`: what clients said, what they pinged,
which task was asked to talk to which address, and which addresses a client was announced with. As
long as the datagrams from these addresses are genuine, so is everything that the channel holds and
sends: voice under the key of the client that it is sent to, of others only.
-/

namespace Voices.VoiceServer

open Semantics Std

/-- The output neither leaves the server nor answers a request. -/
def Output.plain : Output → Bool
  | .sent _ _ => false
  | .task _ _ => false
  | .answered _ _ => false
  | _ => true

def Response.granted? : Response → Option InitResponse
  | .established response => response
  | _ => none

structure Facts where
  said : Voice → Prop
  pinged : UInt64 → Prop
  asked : SocketAddr → TaskId → Prop
  announced : SocketAddr → Prop

structure Facts.Le (f f' : Facts) : Prop where
  said : ∀ voice, f.said voice → f'.said voice
  pinged : ∀ seq, f.pinged seq → f'.pinged seq
  asked : ∀ addr t, f.asked addr t → f'.asked addr t
  announced : ∀ addr, f.announced addr → f'.announced addr

theorem Facts.Le.trans {f f' f'' : Facts} (h : f.Le f') (h' : f'.Le f'') : f.Le f'' where
  said voice hSaid := h'.said voice (h.said voice hSaid)
  pinged seq hPinged := h'.pinged seq (h.pinged seq hPinged)
  asked addr t hAsked := h'.asked addr t (h.asked addr t hAsked)
  announced addr hAnnounced := h'.announced addr (h.announced addr hAnnounced)

namespace VoiceChannel

/-- The key of the connection with this source id. -/
def KeyOf (s : VoiceChannel) (srcId : UInt32) (key : Key) : Prop :=
  ∃ (t : TaskId) (c : VoiceConnection), s.spawned[t]? = some c ∧ c.sourceId = srcId ∧ c.cryptKey = key

/-- A datagram whose payload was encrypted by the client that it names. -/
def Genuine (aead : Aead Key Nonce) (f : Facts) (s : VoiceChannel) : InternalMsg → Prop
  | .voice datagram => ∃ key voice, f.said voice ∧ s.KeyOf voice.sourceId key ∧
      Encrypted aead key datagram voice
  | .ping ping => f.pinged ping.seq

/-- Voice that a client was sent: others said it, and it is encrypted for this client. -/
def Told (aead : Aead Key Nonce) (f : Facts) (s : VoiceChannel) (addr : SocketAddr) (sent : Voice) : Prop :=
  ∃ (t : TaskId) (c : VoiceConnection) (voice : Voice), f.asked addr t ∧ s.spawned[t]? = some c ∧
    f.said voice ∧ voice.sourceId ≠ c.sourceId ∧ Encrypted aead c.cryptKey sent voice

/-- A message that the channel sends to an address. -/
def Sends (aead : Aead Key Nonce) (f : Facts) (s : VoiceChannel) (addr : SocketAddr)
    (message : ServerMessage) : Prop :=
  match message.message with
  | some (.pong pong) => f.pinged pong.seq
  | some (.voice sent) => s.Told aead f addr sent
  | some (.ipDisco disco) => disco = { ip := addr.ip.toString, port := addr.port.toUInt32 }
  | none => False

/-- A task answers the `Establish` for an address with its own key. -/
def Grants (f : Facts) (s : VoiceChannel) (addr : SocketAddr) (response : InitResponse) : Prop :=
  ∃ (t : TaskId) (c : VoiceConnection), f.asked addr t ∧ s.spawned[t]? = some c ∧ response = c.initResponse

structure Authentic (aead : Aead Key Nonce) (f : Facts) (s : VoiceChannel) : Prop where
  queued : ∀ (t : TaskId) (c : VoiceConnection) (msg : InternalMsg), s.spawned[t]? = some c →
    msg ∈ c.msgRx → s.Genuine aead f msg ∧ msg.sourceId = c.sourceId
  pending : ∀ tx sender msg, s.await = .forward tx sender msg →
    s.Genuine aead f msg ∧ ∃ c, s.spawned[tx]? = some c ∧ msg.sourceId = c.sourceId
  heard : ∀ item ∈ s.voice, f.said item.2 ∧ item.2.sourceId = item.1
  bound : ∀ (k : UInt32) (conn : Conn) (addr : SocketAddr), s.forwarder.connections[k]? = some conn →
    conn.addr = some addr → f.announced addr
  peered : ∀ (t : TaskId) (c : VoiceConnection) (p : Peered), s.spawned[t]? = some c →
    c.phase = .peered p → f.asked p.addr t
  waits : ∀ clientId addr t, s.await = .control (.establish clientId addr) t → f.asked addr t
  replied : ∀ clientId addr t response, s.await = .control (.establish clientId addr) t →
    s.oneshot = some (.init response) →
    ∃ c : VoiceConnection, s.spawned[t]? = some c ∧ response = c.initResponse

/-- An event that comes from the clients: their datagrams are genuine, those from other addresses
are whatever they are, and an `Establish` names an address that a client was announced with. -/
def Expected (env : Env) (f : Facts) (s : VoiceChannel) : Event → Prop
  | .datagram sender bytes _ => ∀ msg : InternalMsg, env.decode bytes = some ⟨some msg.payload⟩ →
      s.Genuine env.aead f msg ∨ ∀ addr, f.announced addr → sameAddr addr sender = false
  | .control (.establish _ addr) _ => f.announced addr
  | _ => True

section Later

variable {env : Env} {aead : Aead Key Nonce} {f f' : Facts} {s s' : VoiceChannel}

theorem KeyOf.unique (hDistinct : s.Distinct) {t : TaskId} {c : VoiceConnection} {key : Key}
    (hTask : s.spawned[t]? = some c) (h : s.KeyOf c.sourceId key) : key = c.cryptKey := by
  obtain ⟨t', c', hTask', hSource, rfl⟩ := h
  obtain rfl := hDistinct t' t c' c hTask' hTask hSource
  cases hTask'.symm.trans hTask
  rfl

theorem KeyOf.later (hTasks : TasksEffect env s s') {srcId : UInt32} {key : Key} (h : s.KeyOf srcId key) :
    s'.KeyOf srcId key := by
  obtain ⟨t, c, hTask, hSource, hKey⟩ := h
  obtain ⟨c', hTask', hSame⟩ := hTasks.same hTask
  exact ⟨t, c', hTask', hSame.sourceId.trans hSource, hSame.cryptKey.trans hKey⟩

theorem Genuine.later (hTasks : TasksEffect env s s') (hLe : f.Le f') {msg : InternalMsg}
    (h : s.Genuine aead f msg) : s'.Genuine aead f' msg := by
  cases msg with
  | voice datagram =>
    obtain ⟨key, voice, hSaid, hKey, hEncrypted⟩ := h
    exact ⟨key, voice, hLe.said voice hSaid, hKey.later hTasks, hEncrypted⟩
  | ping ping => exact hLe.pinged ping.seq h

theorem Told.later (hTasks : TasksEffect env s s') (hLe : f.Le f') {addr : SocketAddr} {sent : Voice}
    (h : s.Told aead f addr sent) : s'.Told aead f' addr sent := by
  obtain ⟨t, c, voice, hAsked, hTask, hSaid, hOther, hEncrypted⟩ := h
  obtain ⟨c', hTask', hSame⟩ := hTasks.same hTask
  refine ⟨t, c', voice, hLe.asked addr t hAsked, hTask', hLe.said voice hSaid, ?_, ?_⟩
  · rw [hSame.sourceId]
    exact hOther
  · rw [hSame.cryptKey]
    exact hEncrypted

theorem Sends.later (hTasks : TasksEffect env s s') (hLe : f.Le f') {addr : SocketAddr}
    {message : ServerMessage} (h : s.Sends aead f addr message) : s'.Sends aead f' addr message := by
  obtain ⟨_ | pong | sent | disco⟩ := message
  · exact h
  · exact hLe.pinged pong.seq h
  · exact Told.later hTasks hLe h
  · exact h

theorem Grants.later (hTasks : TasksEffect env s s') (hLe : f.Le f') {addr : SocketAddr}
    {response : InitResponse} (h : s.Grants f addr response) : s'.Grants f' addr response := by
  obtain ⟨t, c, hAsked, hTask, rfl⟩ := h
  obtain ⟨c', hTask', hSame⟩ := hTasks.same hTask
  refine ⟨t, c', hLe.asked addr t hAsked, hTask', ?_⟩
  rw [VoiceConnection.initResponse, VoiceConnection.initResponse, hSame.cryptKey, hSame.sourceId]

end Later

section Before

variable {env : Env} {s s' : VoiceChannel} {e : Event} {o : List Output}

theorem now_le (h : Effect env s e s' o) : s.now ≤ s'.now := by
  cases h with
  | ticked millis => exact Nat.le_add_right s.now millis
  | _ => exact Nat.le_refl s.now

/-- What is in the queue of a task was there before, or is accepted now. -/
theorem msgRx_before (h : Effect env s e s' o) {t : TaskId} {c' : VoiceConnection}
    (hTask : s'.spawned[t]? = some c') {msg : InternalMsg} (hMem : msg ∈ c'.msgRx) :
    (∃ c : VoiceConnection, s.spawned[t]? = some c ∧ msg ∈ c.msgRx) ∨
      ∃ sender, Accepts env s e t sender msg := by
  cases h with
  | task tx branch c outcome hOld hPoll =>
    rw [polled_spawned, getElem?_set_iff hOld] at hTask
    rcases hTask with ⟨rfl, rfl⟩ | ⟨_, hTask⟩
    · exact .inl ⟨c, hOld, poll_msgRx hPoll hMem⟩
    · exact .inl ⟨c', hTask, hMem⟩
  | pushed e tx sender msg' c hAccepts hOld =>
    rw [turn_spawned, setTask_spawned, getElem?_set_iff hOld] at hTask
    rcases hTask with ⟨rfl, rfl⟩ | ⟨_, hTask⟩
    · rcases List.mem_append.mp hMem with hMem | hMem
      · exact .inl ⟨c, hOld, hMem⟩
      · cases List.mem_singleton.mp hMem
        exact .inr ⟨sender, hAccepts⟩
    · exact .inl ⟨c', hTask, hMem⟩
  | asked e tx c req await hAsks hSettled hOld =>
    rw [waiting_spawned, asking_spawned, getElem?_set_iff hOld] at hTask
    rcases hTask with ⟨rfl, rfl⟩ | ⟨_, hTask⟩
    · exact .inl ⟨c, hOld, hMem⟩
    · exact .inl ⟨c', hTask, hMem⟩
  | bound clientId addr draw srcId conn c hAwait hClient hConn hOld =>
    rw [waiting_spawned, asking_spawned, bind_spawned, getElem?_set_iff hOld] at hTask
    rcases hTask with ⟨rfl, rfl⟩ | ⟨_, hTask⟩
    · exact .inl ⟨c, hOld, hMem⟩
    · exact .inl ⟨c', hTask, hMem⟩
  | opened clientId userName draw =>
    rw [turn_spawned] at hTask
    rcases opened_lookup hTask with hTask | ⟨_, rfl⟩
    · exact .inl ⟨c', hTask, hMem⟩
    · cases hMem
  | _ => exact .inl ⟨c', hTask, hMem⟩

/-- What is accepted is the voice of a datagram from the bound address of its source id. -/
theorem accepts_datagram {tx : TaskId} {voice : Voice} (h : accepts env s e = some (tx, voice)) :
    ∃ sender bytes sendOk conn addr, e = .datagram sender bytes sendOk ∧
      env.decode bytes = some ⟨some (.voice voice)⟩ ∧
      s.forwarder.connections[voice.sourceId]? = some conn ∧ conn.tx = tx ∧ conn.addr = some addr ∧
      sameAddr addr sender = true := by
  cases e with
  | datagram sender bytes sendOk =>
    simp only [accepts] at h
    split at h
    · rename_i voice' hAwait hDecode
      split at h
      · rename_i conn hConn
        split at h
        · rename_i hSame
          cases h
          obtain ⟨addr, hAddr, hSame⟩ := (Option.any_eq_true _ _).mp hSame
          exact ⟨sender, bytes, sendOk, conn, addr, rfl, hDecode, hConn, rfl, hAddr, hSame⟩
        · cases h
      · cases h
    · cases h
  | _ => cases h

/-- A task that talks to an address did so before, or takes the request to do so. -/
theorem peered_before (h : TasksEffect env s s') {t : TaskId} {c' : VoiceConnection} {p' : Peered}
    (hTask : s'.spawned[t]? = some c') (hPhase : c'.phase = .peered p') :
    ∃ c : VoiceConnection, s.spawned[t]? = some c ∧
      ((∃ p, c.phase = .peered p ∧ p.addr = p'.addr) ∨
        (c.running = true ∧ ∃ rest, c.controlChan = .init p'.addr :: rest)) := by
  cases h with
  | kept hTasks => exact ⟨c', hTasks ▸ hTask, .inl ⟨p', hPhase, rfl⟩⟩
  | polled tx c outcome hOld hPoll hTasks =>
    rw [hTasks, getElem?_set_iff hOld] at hTask
    rcases hTask with ⟨rfl, rfl⟩ | ⟨_, hTask⟩
    · refine ⟨c, hOld, (hPoll.peered_before hPhase).imp_right fun ⟨⟨_, hWaiting⟩, hControl⟩ => ?_⟩
      exact ⟨by simp [VoiceConnection.running_iff, hWaiting], hControl⟩
    · exact ⟨c', hTask, .inl ⟨p', hPhase, rfl⟩⟩
  | queued tx c msgs requests hOld hRunning hTasks =>
    rw [hTasks, getElem?_set_iff hOld] at hTask
    rcases hTask with ⟨rfl, rfl⟩ | ⟨_, hTask⟩
    · exact ⟨c, hOld, .inl ⟨p', hPhase, rfl⟩⟩
    · exact ⟨c', hTask, .inl ⟨p', hPhase, rfl⟩⟩
  | opened clientId userName draw hTables hTasks =>
    rw [hTasks] at hTask
    rcases opened_lookup hTask with hTask | ⟨_, rfl⟩
    · exact ⟨c', hTask, .inl ⟨p', hPhase, rfl⟩⟩
    · cases hPhase

/-- What is broadcast was broadcast before, or is what a task has just decrypted. -/
theorem heard_before (h : Effect env s e s' o) {item : UInt32 × Voice} (hMem : item ∈ s'.voice) :
    item ∈ s.voice ∨ ∃ (t : TaskId) (c : VoiceConnection) (datagram : Voice), s.spawned[t]? = some c ∧
      .voice datagram ∈ c.msgRx ∧ item.1 = c.sourceId ∧ Decrypted env.aead c.cryptKey item.2 datagram := by
  cases h with
  | task tx branch c outcome hOld hPoll =>
    rw [polled_voice] at hMem
    rcases List.mem_append.mp hMem with hMem | hMem
    · exact .inl hMem
    · cases hPoll with
      | spoke p datagram rest payload hPhase hQueue hDecrypt =>
        obtain rfl : item = (c.sourceId, { datagram with payload }) := by simpa using hMem
        refine .inr ⟨tx, c, datagram, hOld, ?_, rfl, payload, hDecrypt, rfl⟩
        rw [hQueue]
        exact List.mem_cons_self
      | _ => cases hMem
  | _ => exact .inl hMem

/-- The bound address of a record was bound before, or is the one that an `Establish` names for the
client whose entry leads to the record. -/
theorem bound_before (h : Effect env s e s' o) {k : UInt32} {conn' : Conn} {addr : SocketAddr}
    (hConn : s'.forwarder.connections[k]? = some conn') (hAddr : conn'.addr = some addr) :
    ∃ conn : Conn, s.forwarder.connections[k]? = some conn ∧ conn.tx = conn'.tx ∧
      (conn.addr = some addr ∨ ∃ clientId draw, e = .control (.establish clientId addr) draw ∧
        s.forwarder.clientIdToSrcId[clientId]? = some k) := by
  have hBound {clientId : Uuid} {addr' : SocketAddr} {draw : Draw} {srcId : UInt32} {conn : Conn}
      (hClient : s.forwarder.clientIdToSrcId[clientId]? = some srcId)
      (hOld : s.forwarder.connections[srcId]? = some conn)
      (hNew : (s.bind srcId conn addr').forwarder.connections[k]? = some conn') :
      ∃ old : Conn, s.forwarder.connections[k]? = some old ∧ old.tx = conn'.tx ∧
        (old.addr = some addr ∨ ∃ clientId' draw', Event.control (.establish clientId addr') draw =
          .control (.establish clientId' addr) draw' ∧ s.forwarder.clientIdToSrcId[clientId']? = some k) := by
    rw [bind_connection] at hNew
    split at hNew
    · rename_i hKey
      subst hKey
      cases hNew
      cases hAddr
      exact ⟨conn, hOld, rfl, .inr ⟨clientId, draw, rfl, hClient⟩⟩
    · exact ⟨conn', hNew, rfl, .inl hAddr⟩
  cases h with
  | opened clientId userName draw =>
    rw [turn_forwarder, opened_connection] at hConn
    split at hConn
    · cases hConn
      cases hAddr
    · exact ⟨conn', hConn, rfl, .inl hAddr⟩
  | bound clientId addr' draw srcId conn c hAwait hClient hOld => exact hBound hClient hOld hConn
  | unbound clientId addr' draw srcId conn hAwait hClient hOld => exact hBound hClient hOld hConn
  | reaped => exact ⟨conn', reaped_connection hConn, rfl, .inl hAddr⟩
  | undone | missing | ended => simp [panic, dropped] at hConn
  | _ => exact ⟨conn', hConn, rfl, .inl hAddr⟩

theorem forward_before (h : Effect env s e s' o) {tx : TaskId} {sender : SocketAddr} {msg : InternalMsg}
    (hAwait : s'.await = .forward tx sender msg) :
    s.await = .forward tx sender msg ∨ Accepts env s e tx sender msg := by
  cases h with
  | ticked | task => exact .inl hAwait
  | held sender bytes sendOk tx msg c hAccepts =>
    cases hAwait
    exact .inr hAccepts
  | asked e tx c req await hAsks hSettled hTask hRunning hOn =>
    rw [waiting_await] at hAwait
    rw [hAwait] at hOn
    cases hOn
  | _ => cases hAwait

end Before

section Outputs

variable {env : Env} {s s' : VoiceChannel} {e : Event} {o : List Output}

/-- Outputs that neither leave the server nor answer a request. -/
def Plain (o : List Output) : Prop := ∀ out ∈ o, out.plain = true

theorem plain_nil : Plain [] := List.forall_mem_nil _

theorem plain_singleton {out : Output} (h : out.plain = true) : Plain [out] := by
  intro out' hMem
  rw [List.mem_singleton.mp hMem]
  exact h

theorem plain_returned {output : List Output} (h : Plain output) (result : EventResult) :
    Plain (s.returned result output).2 := by
  intro out hMem
  rcases List.mem_append.mp hMem with hMem | hMem
  · exact h out hMem
  · rw [List.mem_singleton.mp hMem]
    rfl

theorem plain_forwardFailed (error : ForwardError) : Plain (s.forwardFailed error).2 :=
  plain_returned (plain_singleton rfl) _

theorem plain_sendMsg (tx : TaskId) (sender : SocketAddr) (msg : InternalMsg) :
    Plain (s.sendMsg tx sender msg).2 := by
  unfold sendMsg
  split
  · exact plain_forwardFailed _
  · split
    · split
      · exact plain_returned (plain_singleton rfl) _
      · exact plain_nil
    · exact plain_forwardFailed _

theorem plain_forward (sender : SocketAddr) (sourceId : UInt32) (msg : InternalMsg) :
    Plain (s.forward sender sourceId msg).2 := by
  unfold forward
  split
  · exact plain_forwardFailed _
  · unfold connForward
    split
    · exact plain_forwardFailed _
    · split
      · exact plain_sendMsg _ _ _
      · exact plain_forwardFailed _

/-- What a step lets the outside see, where it is sent, answers or comes from a task. -/
inductive Emits (env : Env) (s : VoiceChannel) : Event → Output → Prop where
  | polled (tx : TaskId) (branch : Branch) (c : VoiceConnection) (outcome : Outcome) (output : TaskOutput)
      (hTask : s.spawned[tx]? = some c) (hPoll : PollEffect env c s.now s.voice outcome)
      (hMem : output ∈ outcome.output) : Emits env s (.task tx branch) (.task tx output)
  | located (sender : SocketAddr) (bytes : List UInt8) :
      Emits env s (.datagram sender bytes true)
        (.sent sender (.ipDisco { ip := sender.ip.toString, port := sender.port.toUInt32 }))
  | granted (clientId : Uuid) (addr : SocketAddr) (t : TaskId) (response : InitResponse)
      (hAwait : s.await = .control (.establish clientId addr) t)
      (hReply : s.oneshot = some (.init response)) :
      Emits env s .resume (.answered (.establish clientId addr) (.established (some response)))
  | answered (e : Event) (ctl : ChannelCtl) (response : Response)
      (hOther : response.granted? = none) : Emits env s e (.answered ctl response)
  | plain (e : Event) (out : Output) (hPlain : out.plain = true) : Emits env s e out

theorem Emits.of_plain (h : Plain o) {out : Output} (hMem : out ∈ o) : Emits env s e out :=
  .plain e out (h out hMem)

theorem Emits.of_respond {s₁ : VoiceChannel} {ctl : ChannelCtl} {response : Response} {out : Output}
    (hOther : response.granted? = none)
    (hMem : out ∈ (s₁.respond ctl response).2) : Emits env s e out := by
  rcases List.mem_append.mp hMem with hMem | hMem
  · rw [List.mem_singleton.mp hMem]
    exact .answered e ctl response hOther
  · exact .of_plain (plain_returned (s := s₁) plain_nil (.ok true)) hMem

theorem emits_recvDatagram {sender : SocketAddr} {bytes : List UInt8} {sendOk : Bool} {out : Output}
    (hMem : out ∈ (s.recvDatagram env sender bytes sendOk).2) :
    Emits env s (.datagram sender bytes sendOk) out := by
  unfold recvDatagram at hMem
  split at hMem
  · unfold socketMsg at hMem
    split at hMem
    · unfold ipDisco at hMem
      split at hMem
      · rcases List.mem_append.mp hMem with hMem | hMem
        · cases sendOk with
          | true =>
            rw [List.mem_singleton.mp hMem]
            exact .located sender bytes
          | false => cases hMem
        · exact .of_plain (plain_returned (s := s) plain_nil (.ok true)) hMem
      · exact .of_plain (plain_returned (s := s) plain_nil _) hMem
    · exact .of_plain (plain_forward _ _ _) hMem
    · exact .of_plain (plain_forward _ _ _) hMem
    · rw [List.mem_singleton.mp hMem]
      exact .plain _ _ rfl
  · exact .of_plain (plain_returned (s := s) plain_nil _) hMem

theorem emits_pollPeers {rest : List (Uuid × Conn)} {peers : List Peer} {out : Output}
    (hMem : out ∈ (s.pollPeers rest peers).2) : Emits env s e out := by
  induction rest generalizing peers with
  | nil => exact .of_respond rfl hMem
  | cons entry rest ih =>
    unfold pollPeers at hMem
    split at hMem
    · cases hMem
    · exact ih hMem

theorem emits_controlMsg {ctl : ChannelCtl} {draw : Draw} {out : Output}
    (hMem : out ∈ (s.controlMsg draw ctl).2) : Emits env s e out := by
  cases ctl with
  | openConnection clientId userName => exact .of_respond rfl hMem
  | peers => exact emits_pollPeers hMem
  | establish clientId addr =>
    simp only [controlMsg, establish] at hMem
    split at hMem
    · exact .of_respond rfl hMem
    · split at hMem
      · exact .plain e out (plain_singleton rfl out hMem)
      · split at hMem
        · cases hMem
        · exact .of_plain (plain_returned (s := s.bind _ _ addr) plain_nil .err) hMem
  | leave clientId =>
    simp only [controlMsg, leave] at hMem
    split at hMem
    · exact .of_respond rfl hMem
    · split at hMem
      · cases hMem
      · exact .of_respond rfl hMem
  | status clientId =>
    simp only [controlMsg, status] at hMem
    split at hMem
    · exact .of_respond rfl hMem
    · split at hMem
      · exact .plain e out (plain_singleton rfl out hMem)
      · split at hMem
        · cases hMem
        · exact .of_respond rfl hMem

theorem emits_resumeControl {ctl : ChannelCtl} {tx : TaskId} {r : VoiceChannel × List Output} {out : Output}
    (hAwait : s.await = .control ctl tx) (hResume : s.resumeControl ctl tx = some r) (hMem : out ∈ r.2) :
    Emits env s .resume out := by
  unfold resumeControl at hResume
  split at hResume
  · rename_i clientId addr response hReply
    cases hResume
    rcases List.mem_append.mp hMem with hMem | hMem
    · rw [List.mem_singleton.mp hMem]
      exact .granted clientId addr tx response hAwait hReply
    · exact .of_plain (plain_returned (s := s) plain_nil (.ok true)) hMem
  · cases hResume
    exact .of_respond rfl hMem
  · cases hResume
    exact .of_respond rfl hMem
  · split at hResume <;> cases hResume
    exact .of_plain (plain_returned (s := s) plain_nil .err) hMem
  · split at hResume <;> cases hResume
    exact .of_respond rfl hMem
  · split at hResume <;> cases hResume
    exact .of_respond rfl hMem
  · cases hResume

theorem emits_resumeForward {tx : TaskId} {sender : SocketAddr} {msg : InternalMsg}
    {r : VoiceChannel × List Output} {out : Output} (h : s.resumeForward tx sender msg = some r)
    (hMem : out ∈ r.2) : Emits env s e out := by
  unfold resumeForward at h
  split at h
  · split at h
    · cases h
    · cases Option.some.inj h
      exact .of_plain (plain_sendMsg _ _ _) hMem
  · cases Option.some.inj h
    exact .of_plain (plain_sendMsg _ _ _) hMem

theorem emits_resumePeers {id : Uuid} {conn : Conn} {rest : List (Uuid × Conn)} {peers : List Peer}
    {r : VoiceChannel × List Output} {out : Output} (h : s.resumePeers id conn rest peers = some r)
    (hMem : out ∈ r.2) : Emits env s e out := by
  unfold resumePeers at h
  split at h
  · cases Option.some.inj h
    exact emits_pollPeers hMem
  · cases Option.some.inj h
    exact emits_pollPeers hMem
  · split at h
    · cases h
    · cases Option.some.inj h
      exact emits_pollPeers hMem

theorem emits_step (hStep : step env s e = some (s', o)) {out : Output} (hMem : out ∈ o) :
    Emits env s e out := by
  cases e with
  | tick millis =>
    cases hStep
    cases hMem
  | datagram sender bytes sendOk =>
    obtain ⟨_, hEq⟩ := select_eq_some_iff.mp hStep
    have hOutput : o = (s.recvDatagram env sender bytes sendOk).2 := congrArg Prod.snd hEq
    exact emits_recvDatagram (hOutput ▸ hMem)
  | recvFailed =>
    obtain ⟨_, hEq⟩ := select_eq_some_iff.mp hStep
    cases hEq
    exact .of_plain (plain_returned (s := s) plain_nil (.ok true)) hMem
  | control ctl draw =>
    obtain ⟨_, hEq⟩ := select_eq_some_iff.mp hStep
    have hOutput : o = (s.controlMsg draw ctl).2 := congrArg Prod.snd hEq
    exact emits_controlMsg (hOutput ▸ hMem)
  | controlClosed =>
    obtain ⟨_, hEq⟩ := select_eq_some_iff.mp hStep
    cases hEq
    exact .plain _ out (plain_singleton rfl out hMem)
  | reap index =>
    obtain ⟨_, _, _, _, _, rfl⟩ := reap_step hStep
    exact .plain _ out (plain_singleton rfl out hMem)
  | resume =>
    simp only [step, resume] at hStep
    split at hStep
    · exact emits_resumeForward hStep hMem
    · rename_i hAwait
      exact emits_resumeControl hAwait hStep hMem
    · exact emits_resumePeers hStep hMem
    · cases hStep
  | idleTimeout =>
    simp only [step] at hStep
    split at hStep
    · split at hStep
      · cases hStep
        cases hMem
      · cases hStep
    · cases hStep
  | notified =>
    simp only [step] at hStep
    split at hStep
    · cases hStep
      exact .plain _ out (plain_singleton rfl out hMem)
    · cases hStep
  | task tx branch =>
    obtain ⟨c, outcome, hTask, hPoll, _, rfl⟩ := task_step hStep
    obtain ⟨output, hOutput, rfl⟩ := List.mem_map.mp hMem
    exact .polled tx branch c outcome output hTask hPoll hOutput

end Outputs

section Steps

variable {env : Env} {f f' : Facts} {s s' : VoiceChannel} {e : Event} {o : List Output}

/-- The message of a datagram that a record takes is genuine, and the record is that of its task. -/
theorem Authentic.accepts (h : s.Authentic env.aead f) (hWf : s.Wf) (hExpected : s.Expected env f e)
    {tx : TaskId} {sender : SocketAddr} {msg : InternalMsg} (hAccepts : Accepts env s e tx sender msg) :
    s.Genuine env.aead f msg ∧
      ∃ c : VoiceConnection, s.spawned[tx]? = some c ∧ msg.sourceId = c.sourceId := by
  cases hAccepts with
  | received tx sender bytes sendOk msg hAwait hDecode hBound =>
    obtain ⟨conn, addr, hConn, rfl, hAddr, hSame⟩ := hBound
    obtain ⟨c, hTask, hSource⟩ := (hWf.records _ conn hConn).task
    refine ⟨?_, c, hTask, hSource.symm⟩
    rcases hExpected msg hDecode with hGenuine | hStranger
    · exact hGenuine
    · have hOther := hStranger addr (h.bound _ conn addr hConn hAddr)
      cases hSame.symm.trans hOther
  | held tx sender msg hAwait => exact h.pending tx sender msg hAwait

/-- A genuine datagram in the queue of the task of its sender decrypts to what its sender said. -/
theorem Authentic.decrypts (h : s.Authentic env.aead f) (hLawful : env.aead.Lawful) (hDistinct : s.Distinct)
    {t : TaskId} {c : VoiceConnection} {datagram : Voice} (hTask : s.spawned[t]? = some c)
    (hMem : .voice datagram ∈ c.msgRx) :
    ∃ voice, f.said voice ∧ voice.sourceId = c.sourceId ∧
      decryptVoice env.aead c.cryptKey datagram = some voice.payload ∧
      { datagram with payload := voice.payload } = voice := by
  obtain ⟨⟨key, voice, hSaid, hKey, payload, hEncrypt, rfl⟩, hSource⟩ := h.queued t c _ hTask hMem
  have hSame : voice.sourceId = c.sourceId := hSource
  rw [hSame] at hKey
  obtain rfl := hKey.unique hDistinct hTask
  exact ⟨voice, hSaid, hSame, decryptVoice_of_encryptVoice hLawful hEncrypt, rfl⟩

theorem Authentic.replied_step (h : s.Authentic env.aead f) (hWf : s.Wf)
    (hStep : VoiceChannel.step env s e = some (s', o)) {clientId : Uuid} {addr : SocketAddr} {t : TaskId}
    {response : InitResponse} (hAwait : s'.await = .control (.establish clientId addr) t)
    (hReply : s'.oneshot = some (.init response)) :
    ∃ c : VoiceConnection, s'.spawned[t]? = some c ∧ response = c.initResponse := by
  have hTasks : TasksEffect env s s' := (step_effect hStep).tasks
  have hLater {c : VoiceConnection} (hTask : s.spawned[t]? = some c) (hEq : response = c.initResponse) :
      ∃ c : VoiceConnection, s'.spawned[t]? = some c ∧ response = c.initResponse := by
    obtain ⟨c', hTask', hSame⟩ := hTasks.same hTask
    refine ⟨c', hTask', ?_⟩
    rw [hEq, VoiceConnection.initResponse, VoiceConnection.initResponse, hSame.cryptKey, hSame.sourceId]
  rcases control_await hStep hAwait with hWas | ⟨_, _, _, hNone⟩
  · cases pends hWas hStep with
    | ticked millis =>
      obtain ⟨c, hTask, hEq⟩ := h.replied clientId addr t response hWas hReply
      exact hLater hTask hEq
    | polled i branch c outcome hTask hPoll =>
      cases hOutcome : outcome.reply with
      | none =>
        rw [polled_oneshot, hOutcome] at hReply
        obtain ⟨d, hTask', hEq⟩ := h.replied clientId addr t response hWas hReply
        exact hLater hTask' hEq
      | some reply =>
        -- the only request that a task can answer is the one that is waited for
        obtain ⟨hRunning, request, rest, hQueue, hAnswer⟩ := hPoll.reply hOutcome
        obtain ⟨hOn, _, rfl, _⟩ := hWf.awaited hTask hRunning hQueue
        rw [hWas] at hOn hAnswer
        obtain rfl : t = i := Option.some.inj hOn
        rw [polled_oneshot, hOutcome, hAnswer] at hReply
        cases hReply
        exact hLater hTask rfl
    | resumed s' o hResume =>
      have hTurn := resumeControl_await hResume
      dsimp only at hTurn
      rw [hTurn] at hAwait
      cases hAwait
    | idled => cases hAwait
  · cases hNone.symm.trans hReply

/-- What a step keeps, when the facts only grow and include the task that an `Establish` asks. -/
theorem Authentic.step (h : s.Authentic env.aead f) (hWf : s.Wf) (hLawful : env.aead.Lawful)
    (hDistinct : s'.Distinct) (hLe : f.Le f') (hExpected : s.Expected env f e)
    (hStep : VoiceChannel.step env s e = some (s', o))
    (hAsked : ∀ clientId addr t, s'.await = .control (.establish clientId addr) t → f'.asked addr t) :
    s'.Authentic env.aead f' := by
  have hEffect : Effect env s e s' o := step_effect hStep
  have hTasks : TasksEffect env s s' := hEffect.tasks
  have hBefore : s.Distinct := hDistinct.before hTasks
  have hSource {t : TaskId} {c : VoiceConnection} {msg : InternalMsg} (hTask : s.spawned[t]? = some c)
      (hEq : msg.sourceId = c.sourceId) :
      ∃ c' : VoiceConnection, s'.spawned[t]? = some c' ∧ msg.sourceId = c'.sourceId := by
    obtain ⟨c', hTask', hSame⟩ := hTasks.same hTask
    exact ⟨c', hTask', hEq.trans hSame.sourceId.symm⟩
  refine ⟨?_, ?_, ?_, ?_, ?_, hAsked, ?_⟩
  · intro t c' msg hTask' hMem
    have hOld : s.Genuine env.aead f msg ∧
        ∃ c : VoiceConnection, s.spawned[t]? = some c ∧ msg.sourceId = c.sourceId := by
      rcases msgRx_before hEffect hTask' hMem with ⟨c, hTask, hOld⟩ | ⟨sender, hAccepts⟩
      · obtain ⟨hGenuine, hEq⟩ := h.queued t c msg hTask hOld
        exact ⟨hGenuine, c, hTask, hEq⟩
      · exact h.accepts hWf hExpected hAccepts
    obtain ⟨hGenuine, c, hTask, hEq⟩ := hOld
    obtain ⟨c'', hTask'', hEq'⟩ := hSource hTask hEq
    cases hTask''.symm.trans hTask'
    exact ⟨hGenuine.later hTasks hLe, hEq'⟩
  · intro tx sender msg hAwait
    have hOld : s.Genuine env.aead f msg ∧
        ∃ c : VoiceConnection, s.spawned[tx]? = some c ∧ msg.sourceId = c.sourceId := by
      rcases forward_before hEffect hAwait with hWas | hAccepts
      · exact h.pending tx sender msg hWas
      · exact h.accepts hWf hExpected hAccepts
    obtain ⟨hGenuine, c, hTask, hEq⟩ := hOld
    exact ⟨hGenuine.later hTasks hLe, hSource hTask hEq⟩
  · intro item hMem
    rcases heard_before hEffect hMem with hOld | ⟨t, c, datagram, hTask, hQueue, hId, payload, hDecrypt, hEq⟩
    · obtain ⟨hSaid, hEq⟩ := h.heard item hOld
      exact ⟨hLe.said _ hSaid, hEq⟩
    · obtain ⟨voice, hSaid, hVoice, hPlain, hWhole⟩ := h.decrypts hLawful hBefore hTask hQueue
      cases hDecrypt.symm.trans hPlain
      rw [hEq, hWhole, hId]
      exact ⟨hLe.said voice hSaid, hVoice⟩
  · intro k conn addr hConn hAddr
    obtain ⟨old, hOld, _, hBefore⟩ := bound_before hEffect hConn hAddr
    rcases hBefore with hOldAddr | ⟨clientId, draw, rfl, _⟩
    · exact hLe.announced addr (h.bound k old addr hOld hOldAddr)
    · exact hLe.announced addr hExpected
  · intro t c' p' hTask' hPhase
    obtain ⟨c, hTask, hCases⟩ := peered_before hTasks hTask' hPhase
    rcases hCases with ⟨p, hPhase, hAddr⟩ | ⟨hRunning, rest, hQueue⟩
    · rw [← hAddr]
      exact hLe.asked p.addr t (h.peered t c p hTask hPhase)
    · obtain ⟨hOn, _, hRequest, _⟩ := hWf.awaited hTask hRunning hQueue
      obtain ⟨clientId, tx, hAwait⟩ := Await.establish_of_request hRequest.symm
      rw [hAwait] at hOn
      obtain rfl : tx = t := Option.some.inj hOn
      exact hLe.asked p'.addr tx (h.waits clientId p'.addr tx hAwait)
  · intro clientId addr t response hAwait hReply
    exact h.replied_step hWf hStep hAwait hReply

/-- More facts make no difference to what was genuine before. -/
theorem Authentic.mono (h : s.Authentic env.aead f) (hLe : f.Le f') : s.Authentic env.aead f' := by
  have hSame : TasksEffect env s s := .kept rfl
  refine ⟨?_, ?_, ?_, ?_, ?_, ?_, h.replied⟩
  · intro t c msg hTask hMem
    obtain ⟨hGenuine, hSource⟩ := h.queued t c msg hTask hMem
    exact ⟨hGenuine.later hSame hLe, hSource⟩
  · intro tx sender msg hAwait
    obtain ⟨hGenuine, hSource⟩ := h.pending tx sender msg hAwait
    exact ⟨hGenuine.later hSame hLe, hSource⟩
  · intro item hMem
    obtain ⟨hSaid, hSource⟩ := h.heard item hMem
    exact ⟨hLe.said item.2 hSaid, hSource⟩
  · intro k conn addr hConn hAddr
    exact hLe.announced addr (h.bound k conn addr hConn hAddr)
  · intro t c p hTask hPhase
    exact hLe.asked p.addr t (h.peered t c p hTask hPhase)
  · intro clientId addr t hAwait
    exact hLe.asked addr t (h.waits clientId addr t hAwait)

/-- What is sent in a step, and the answers that grant a client its key. -/
theorem Authentic.outputs (h : s.Authentic env.aead f) (hStep : VoiceChannel.step env s e = some (s', o))
    {out : Output} (hMem : out ∈ o) :
    (∀ addr message, out = .sent addr message ∨ (∃ t, out = .task t (.sent addr message)) →
      s.Sends env.aead f addr message) ∧
    ∀ clientId addr response,
      out = .answered (.establish clientId addr) (.established (some response)) →
        s.Grants f addr response := by
  cases emits_step hStep hMem with
  | polled tx branch c outcome output hTask hPoll hOutput =>
    refine ⟨?_, by rintro _ _ _ hEq; cases hEq⟩
    rintro addr message (hEq | ⟨t, hEq⟩)
    · cases hEq
    · cases hEq
      cases hPoll with
      | ponged p ping rest hPhase hQueue =>
        obtain ⟨rfl, rfl⟩ : addr = p.addr ∧ message = _ := by simpa using hOutput
        have hPinged : .ping ping ∈ c.msgRx := by
          rw [hQueue]
          exact List.mem_cons_self
        exact (h.queued tx c _ hTask hPinged).1
      | relayed p rxPktId voice next use hPhase hRecv hOther hEncrypt =>
        obtain ⟨rfl, rfl⟩ : addr = p.addr ∧ message = _ := by simpa using hOutput
        have hLog := List.mem_of_getElem? (Broadcast.recv_item hRecv).1
        obtain ⟨hSaid, hSource⟩ := h.heard _ hLog
        refine ⟨tx, c, voice, h.peered tx c p hTask hPhase, hTask, hSaid, ?_, use.cipher,
          Voice.encryptVoice_of_encrypt hEncrypt, rfl⟩
        intro hEq
        exact hOther (hEq.symm.trans hSource)
      | unsent => simp at hOutput
      | _ => cases hOutput
  | located sender bytes =>
    refine ⟨?_, by rintro _ _ _ hEq; cases hEq⟩
    rintro addr message (hEq | ⟨t, hEq⟩) <;> cases hEq
    rfl
  | granted clientId addr t response hAwait hReply =>
    refine ⟨?_, ?_⟩
    · rintro _ _ (hEq | ⟨t, hEq⟩) <;> cases hEq
    · intro _ _ _ hEq
      cases hEq
      obtain ⟨c, hTask, hGrant⟩ := h.replied clientId addr t response hAwait hReply
      exact ⟨t, c, h.waits clientId addr t hAwait, hTask, hGrant⟩
  | answered e ctl response hOther =>
    refine ⟨?_, ?_⟩
    · rintro _ _ (hEq | ⟨t, hEq⟩) <;> cases hEq
    · intro _ _ _ hEq
      cases hEq
      cases hOther
  | plain e out hPlain =>
    refine ⟨?_, ?_⟩
    · rintro addr message (rfl | ⟨t, rfl⟩) <;> cases hPlain
    · rintro clientId addr response rfl
      cases hPlain

/-- Voice is sent by tasks only, and a task sends to the address that it was asked to talk to. -/
theorem Authentic.senders (h : s.Authentic env.aead f) (hStep : VoiceChannel.step env s e = some (s', o))
    {out : Output} (hMem : out ∈ o) (addr : SocketAddr) (message : ServerMessage) :
    (out = .sent addr message → message.voice? = none) ∧
      ∀ t, out = .task t (.sent addr message) → f.asked addr t := by
  cases emits_step hStep hMem with
  | polled tx branch c outcome output hTask hPoll hOutput =>
    constructor
    · intro hEq
      cases hEq
    · intro t hEq
      cases hEq
      obtain ⟨p, hPhase, rfl⟩ := hPoll.sent_peer hOutput
      exact h.peered tx c p hTask hPhase
  | located sender bytes =>
    constructor
    · intro hEq
      cases hEq
      rfl
    · intro t hEq
      cases hEq
  | granted | answered =>
    constructor
    · intro hEq
      cases hEq
    · intro t hEq
      cases hEq
  | plain e out hPlain =>
    constructor
    · rintro rfl
      cases hPlain
    · rintro t rfl
      cases hPlain

theorem new_authentic (aead : Aead Key Nonce) (f : Facts) (roomId : Uuid) (now : Instant) :
    (new roomId now).Authentic aead f where
  queued _ _ _ hTask := by cases hTask
  pending _ _ _ hAwait := by cases hAwait
  heard _ hMem := by cases hMem
  bound _ _ _ hConn := by simp [new] at hConn
  peered _ _ _ hTask := by cases hTask
  waits _ _ _ hAwait := by cases hAwait
  replied _ _ _ _ hAwait := by cases hAwait

end Steps

end VoiceChannel

end Voices.VoiceServer
