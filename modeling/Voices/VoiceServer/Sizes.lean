import Voices.VoiceServer.Tables
import Voices.VoiceServer.Wire

/-!
# The size of forwarded voice

Voice that one client sends is decrypted and encrypted again for the others. The
payload comes back to its length, and no encoding of a message is shorter than the one
that the server writes, so that what is forwarded fits the buffer that it came in.
-/

namespace Voices.VoiceServer

open Semantics

/-- The server decodes what it receives on its socket. -/
def Env.OnSocket (env : Env) : Prop :=
  ∀ sender datagram, env.decode datagram =
    (UdpWithBuf.new.recvProtoFrom sender datagram).toOption.map Prod.snd

/-- The voice message fits the buffer of the socket. -/
def Voice.Fits (voice : Voice) : Prop :=
  (ServerMessage.voice voice).encode.length ≤ UdpWithBuf.new.bufSize

theorem ServerMessage.encode_voice_length (voice : Voice) {payload payload' : List UInt8}
    (h : payload.length = payload'.length) :
    (ServerMessage.voice { voice with payload }).encode.length =
      (ServerMessage.voice { voice with payload := payload' }).encode.length :=
  Protobuf.length_encodeMessage_congr 2 (voice.encode_length_congr h)

theorem Voice.Fits.congr {voice : Voice} {payload : List UInt8} (h : voice.Fits)
    (hLength : payload.length = voice.payload.length) : Voice.Fits { voice with payload } :=
  (ServerMessage.encode_voice_length voice hLength).le.trans h

theorem Env.OnSocket.fits {env : Env} (hSocket : env.OnSocket) {datagram : List UInt8} {voice : Voice}
    (h : env.decode datagram = some ⟨some (.voice voice)⟩) : voice.Fits := by
  rw [hSocket ⟨.v4 0, 0⟩, UdpWithBuf.recvProtoFrom] at h
  split at h
  · rename_i msg hDecode
    cases h
    exact (ClientMessage.decode_length hDecode).trans (List.length_take_le _ _)
  · cases h

theorem UdpWithBuf.sendTo_of_fits {voice : Voice} (h : voice.Fits) (target : SocketAddr) (taken : Bool) :
    UdpWithBuf.new.sendTo (.voice voice) target taken =
      if taken then .ok (target, (ServerMessage.voice voice).encode) else .error .ioError := by
  unfold sendTo
  rw [if_pos (show (ServerMessage.voice voice).encode.length ≤ new.bufSize from h)]

/-- Decrypting a message takes the tag off its payload; encrypting it again puts one on. -/
theorem recrypted_length {aead : Aead Key Nonce} {overhead : Nat} (hTag : aead.Expands overhead)
    {key key' : Key} {voice : Voice} {plain payload : List UInt8}
    (hPlain : decryptVoice aead key voice = some plain)
    (hPayload : encryptVoice aead key' { voice with payload := plain } = some payload) :
    payload.length = voice.payload.length :=
  (hTag.encrypt_length (encryptVoice_eq .. ▸ hPayload)).trans (hTag.decrypt_length hPlain).symm

/-- A listener whose socket takes the message goes on. -/
theorem VoiceConnection.poll_broadcast {env : Env} (c : VoiceConnection) {now : Instant} {senders : Bool}
    {log : List (UInt32 × Voice)} {p : Peered} {rxPktId : UInt32} {voice : Voice} {next : Nat}
    {payload : List UInt8} (hPhase : c.phase = .peered p)
    (hRecv : Broadcast.recv env.slots log p.voiceRx = .item (rxPktId, voice) next)
    (hEncrypt : encryptVoice env.aead c.cryptKey voice = some payload) :
    ∃ outcome, c.poll env now senders log (.broadcast true) = some outcome ∧
      outcome.task.running = true := by
  by_cases hOwn : c.sourceId = rxPktId
  · simp only [poll, hPhase, peered, hRecv, if_pos hOwn]
    exact ⟨_, rfl, rfl⟩
  · obtain ⟨use, hUse, _⟩ := exists_encrypt hEncrypt
    simp only [poll, hPhase, peered, hRecv, if_neg hOwn, hUse, if_true]
    exact ⟨_, rfl, rfl⟩

namespace VoiceChannel

variable {env : Env} {s s' : VoiceChannel} {e : Event} {o : List Output} {overhead : Nat}

/-- Whatever voice the server holds fits the buffer of the socket once it is encrypted. -/
structure Fitting (overhead : Nat) (s : VoiceChannel) : Prop where
  queued : ∀ (i : TaskId) (c : VoiceConnection) (voice : Voice), s.spawned[i]? = some c →
    .voice voice ∈ c.msgRx → voice.Fits
  pending : ∀ tx sender voice, s.await = .forward tx sender (.voice voice) → voice.Fits
  heard : ∀ item ∈ s.voice, ∀ payload : List UInt8,
    payload.length = item.2.payload.length + overhead → Voice.Fits { item.2 with payload }

theorem poll_msgRx {c : VoiceConnection} {now : Instant} {log : List (UInt32 × Voice)}
    {outcome : Outcome} (h : PollEffect env c now log outcome) {msg : InternalMsg}
    (hMem : msg ∈ outcome.task.msgRx) : msg ∈ c.msgRx := by
  cases h with
  | finished | stopped | unsent => cases hMem
  | spoke p voice rest payload hPhase hQueue =>
    rw [hQueue]
    exact List.mem_cons_of_mem _ hMem
  | ponged p ping rest hPhase hQueue =>
    rw [hQueue]
    exact List.mem_cons_of_mem _ hMem
  | accepted | answered | lagged | skipped | relayed => exact hMem

theorem Fitting.accepts (h : s.Fitting overhead) (hSocket : env.OnSocket) {tx : TaskId}
    {sender : SocketAddr} {voice : Voice} (hAccepts : Accepts env s e tx sender (.voice voice)) :
    voice.Fits := by
  cases hAccepts with
  | received tx sender bytes sendOk msg hAwait hDecode => exact hSocket.fits hDecode
  | held tx sender msg hAwait => exact h.pending tx sender voice hAwait

theorem Fitting.of_eq (h : s.Fitting overhead) (hTasks : s'.spawned = s.spawned)
    (hVoice : s'.voice = s.voice)
    (hAwait : ∀ tx sender voice, s'.await = .forward tx sender (.voice voice) → voice.Fits) :
    s'.Fitting overhead where
  queued i c voice hTask := h.queued i c voice (hTasks ▸ hTask)
  pending := hAwait
  heard item hMem := h.heard item (hVoice ▸ hMem)

/-- Putting requests into the queue of a task adds no voice. -/
theorem Fitting.asking (h : s.Fitting overhead) {tx : TaskId} {c : VoiceConnection}
    {request : ControlRequest} (hTask : s.spawned[tx]? = some c) :
    (s.asking tx c request).Fitting overhead where
  queued i d voice hTask' hMem := by
    rw [asking_spawned, getElem?_set_iff hTask] at hTask'
    rcases hTask' with ⟨rfl, rfl⟩ | ⟨_, hTask'⟩
    · exact h.queued _ c voice hTask hMem
    · exact h.queued i d voice hTask' hMem
  pending := h.pending
  heard := h.heard

theorem Fitting.polled (h : s.Fitting overhead) (hTag : env.aead.Expands overhead) {tx : TaskId}
    {c : VoiceConnection} {outcome : Outcome} (hTask : s.spawned[tx]? = some c)
    (hPoll : PollEffect env c s.now s.voice outcome) : (s.polled tx outcome).Fitting overhead where
  queued i d voice hTask' hMem := by
    rw [polled_spawned, getElem?_set_iff hTask] at hTask'
    rcases hTask' with ⟨rfl, rfl⟩ | ⟨_, hTask'⟩
    · exact h.queued _ c voice hTask (poll_msgRx hPoll hMem)
    · exact h.queued i d voice hTask' hMem
  pending := h.pending
  heard item hMem payload hPayload := by
    rw [polled_voice] at hMem
    rcases List.mem_append.mp hMem with hOld | hNew
    · exact h.heard item hOld payload hPayload
    · cases hPoll with
      | spoke p voice rest plain hPhase hQueue hDecrypt =>
        obtain rfl : item = (c.sourceId, { voice with payload := plain }) := by simpa using hNew
        have hFits : voice.Fits := h.queued tx c voice hTask (hQueue ▸ List.mem_cons_self)
        exact hFits.congr (hPayload.trans (hTag.decrypt_length hDecrypt).symm)
      | _ => cases hNew

theorem Fitting.step (h : s.Fitting overhead) (hTag : env.aead.Expands overhead)
    (hSocket : env.OnSocket) (hEffect : Effect env s e s' o) : s'.Fitting overhead := by
  cases hEffect with
  | ticked => exact h.of_eq rfl rfl h.pending
  | task tx branch c outcome hTask hPoll => exact h.polled hTag hTask hPoll
  | pushed e tx sender msg c hAccepts hTask =>
    refine ⟨fun i d voice hTask' hMem => ?_, (fun _ _ _ hAwait => by cases hAwait), h.heard⟩
    rcases (getElem?_set_iff hTask).mp hTask' with ⟨rfl, rfl⟩ | ⟨_, hOld⟩
    · rcases List.mem_append.mp hMem with hOld | hNew
      · exact h.queued _ c voice hTask hOld
      · rw [← List.mem_singleton.mp hNew] at hAccepts
        exact h.accepts hSocket hAccepts
    · exact h.queued i d voice hOld hMem
  | held sender bytes sendOk tx msg c hAccepts =>
    refine h.of_eq rfl rfl fun tx' sender' voice hAwait => ?_
    cases hAwait
    exact h.accepts hSocket hAccepts
  | bound clientId addr draw srcId conn c hAwait hClient hConn hTask =>
    refine Fitting.of_eq (Fitting.asking (s := s.bind srcId conn addr) ?_ hTask) rfl rfl
      fun _ _ _ hForward => by cases hForward
    exact h.of_eq rfl rfl h.pending
  | asked e tx c req await hAsks hSettled hTask hRunning hOn =>
    refine (h.asking hTask).of_eq rfl rfl fun _ _ _ hForward => ?_
    cases hForward
    cases hOn
  | opened clientId userName draw hAwait =>
    refine ⟨fun i c voice hTask hMem => ?_, (fun _ _ _ hAwait => by cases hAwait), h.heard⟩
    rw [turn_spawned] at hTask
    rcases opened_lookup hTask with hOld | ⟨rfl, rfl⟩
    · exact h.queued i c voice hOld hMem
    · cases hMem
  | turned | undone | missing | unbound | reaped | closed | idled | ended =>
    exact h.of_eq rfl rfl fun _ _ _ hForward => by cases hForward

theorem new_fitting (roomId : Uuid) (now : Instant) : (new roomId now).Fitting overhead where
  queued i c voice hTask := by cases hTask
  pending tx sender voice hAwait := by cases hAwait
  heard item hMem := by cases hMem

theorem fitting {roomId : Uuid} {now : Instant} {es : List Event} {tr : List Output}
    (hTag : env.aead.Expands overhead) (hSocket : env.OnSocket)
    (hRun : Machine.run (VoiceChannel.step env) (new roomId now) es = some (s, tr)) :
    s.Fitting overhead :=
  Machine.run_invariant (new_fitting roomId now)
    (fun _ _ _ _ h hStep => h.step hTag hSocket (step_effect hStep)) hRun

/-- Forwarded voice is encoded in no more bytes than the datagram that it came in had. In a run,
no voice message that a task has to send is too long for the buffer, and a task goes on when its
socket takes the message. -/
theorem forwards_every_size (env : Env) (overhead : Nat) (hTag : env.aead.Expands overhead) :
    (∀ datagram voice key plain key' payload,
      ClientMessage.decode datagram = some ⟨some (.voice voice)⟩ →
      decryptVoice env.aead key voice = some plain →
      encryptVoice env.aead key' { voice with payload := plain } = some payload →
      (ServerMessage.voice { voice with payload }).encode.length ≤ datagram.length) ∧
    (env.OnSocket → ∀ roomId now es s tr,
      Machine.run (VoiceChannel.step env) (new roomId now) es = some (s, tr) →
      ∀ (tx : TaskId) (c : VoiceConnection) p rxPktId voice next payload,
      s.spawned[tx]? = some c → c.phase = .peered p →
      Broadcast.recv env.slots s.voice p.voiceRx = .item (rxPktId, voice) next →
      encryptVoice env.aead c.cryptKey voice = some payload →
      (∀ taken, UdpWithBuf.new.sendTo (.voice { voice with payload }) p.addr taken ≠
        .error .encodeError) ∧
      ∃ outcome, c.poll env s.now (s.senders tx) s.voice (.broadcast
          (UdpWithBuf.new.sendTo (.voice { voice with payload }) p.addr true).isOk) = some outcome ∧
        outcome.task.running = true) := by
  constructor
  · intro datagram voice key plain key' payload hDecode hPlain hPayload
    rw [ServerMessage.encode_voice_length voice (recrypted_length hTag hPlain hPayload)]
    exact ClientMessage.decode_length hDecode
  · intro hSocket roomId now es s tr hRun tx c p rxPktId voice next payload hTask hPhase hRecv hEncrypt
    have hItem := List.mem_of_getElem? (Broadcast.recv_item hRecv).1
    have hFits := (fitting hTag hSocket hRun).heard _ hItem payload (hTag.encrypt_length (encryptVoice_eq .. ▸ hEncrypt))
    constructor
    · intro taken
      rw [UdpWithBuf.sendTo_of_fits hFits]
      split <;> exact fun h => by cases h
    · rw [UdpWithBuf.sendTo_of_fits hFits]
      exact c.poll_broadcast hPhase hRecv hEncrypt

end VoiceChannel

/-- A cipher that puts a tag of 16 bytes in front of what it is given. -/
def boxed : Aead Key Nonce where
  encrypt _ _ plain := some (List.replicate 16 0 ++ plain)
  decrypt _ _ cipher :=
    if cipher.take 16 = List.replicate 16 0 then some (cipher.drop 16) else none

theorem boxed_expands : boxed.Expands 16 where
  encrypt_length := by
    intro key nonce plain cipher h
    cases h
    rw [List.length_append, List.length_replicate, Nat.add_comm]
  decrypt_length := by
    intro key nonce plain cipher h
    simp only [boxed] at h
    split at h
    · rename_i hTag
      cases h
      have hLength := congrArg List.length hTag
      rw [List.length_take, List.length_replicate] at hLength
      rw [List.length_drop]
      omega
    · cases h

def Env.boxed : Env where
  decode datagram := (UdpWithBuf.new.recvProtoFrom ⟨.v4 0, 0⟩ datagram).toOption.map Prod.snd
  aead := Voices.VoiceServer.boxed
  slots := 16

theorem boxed_onSocket : Env.boxed.OnSocket := by
  intro sender datagram
  simp only [Env.boxed, UdpWithBuf.recvProtoFrom]
  split <;> rfl

namespace VoiceChannel

/-- Voice of one byte in two parts, one of them with a length that is longer than it needs to
be, and between them a group that the server does not know. -/
def parts : List UInt8 :=
  [0x12, 0x82, 0x00, 0x18, 10, 0x2b, 0x08, 0x80, 0x00, 0x2c, 0x12, 19, 0x22, 17] ++
    List.replicate 16 0 ++ [5]

/-- One client speaks, and another one has not heard it yet. -/
def speaking : List Event :=
  [.control (.openConnection 1 "a") ⟨10, [1]⟩, .control (.establish 1 ⟨.v4 1, 9⟩) ⟨0, []⟩,
    .task 0 .control, .resume,
    .control (.openConnection 2 "b") ⟨11, [2]⟩, .control (.establish 2 ⟨.v4 2, 9⟩) ⟨0, []⟩,
    .task 1 .control, .resume,
    .datagram ⟨.v4 1, 9⟩ parts true, .task 0 (.message true)]

theorem forwards_every_size_parts : ∃ s tr c p next,
    Machine.run (VoiceChannel.step .boxed) (new 7 0) speaking = some (s, tr) ∧
      s.spawned[1]? = some c ∧ c.phase = .peered p ∧
      Broadcast.recv 16 s.voice p.voiceRx = .item (10, ⟨0, 0, 10, [5]⟩) next ∧
      (ServerMessage.voice ⟨0, 0, 10, List.replicate 16 0 ++ [5]⟩).encode.length ≤ parts.length ∧
      ∀ taken, UdpWithBuf.new.sendTo (.voice ⟨0, 0, 10, List.replicate 16 0 ++ [5]⟩) p.addr taken ≠
        .error .encodeError := by
  obtain ⟨hDatagram, hRuns⟩ := forwards_every_size .boxed 16 boxed_expands
  obtain ⟨s, tr, c, p, next, hRun, hTask, hPhase, hRecv⟩ :
      ∃ (s : VoiceChannel) (tr : List Output) (c : VoiceConnection) (p : Peered) (next : Nat),
      Machine.run (VoiceChannel.step .boxed) (new 7 0) speaking = some (s, tr) ∧
      s.spawned[1]? = some c ∧ c.phase = .peered p ∧
      Broadcast.recv 16 s.voice p.voiceRx = .item (10, ⟨0, 0, 10, [5]⟩) next :=
    ⟨_, _, _, _, _, rfl, rfl, rfl, rfl⟩
  refine ⟨s, tr, c, p, next, hRun, hTask, hPhase, hRecv, ?_, ?_⟩
  · exact hDatagram parts ⟨0, 0, 10, List.replicate 16 0 ++ [5]⟩ [1] [5] [2] _ (by decide) rfl rfl
  · exact (hRuns boxed_onSocket 7 0 speaking s tr hRun 1 c p 10 _ next _ hTask hPhase hRecv rfl).1

end VoiceChannel

end Voices.VoiceServer
