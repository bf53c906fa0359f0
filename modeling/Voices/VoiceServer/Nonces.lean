import Mathlib.Data.List.Perm.Subperm
import Voices.Client.UdpTx
import Voices.VoiceServer.Relay
import Voices.VoiceServer.Wire

/-!
# Nonces under one session key

A session key is used by both ends of a connection: by the owning client for
its own voice, and by the server for what it forwards to that client. The
nonce that the cipher gets consists of the sequence and the stream time of the
message, which the server takes over from the speaker; so it repeats exactly
when two messages repeat this pair. `udp_tx` takes a new pair for each
encryption, the voice task of a listener takes whatever the speakers send.
-/

namespace Voices.VoiceServer

open Semantics Client

def Voice.timing (voice : Voice) : UInt64 × UInt64 := (voice.sequence, voice.streamTime)

def Voice.label (voice : Voice) : UInt32 × UInt64 × UInt64 := (voice.sourceId, voice.timing)

theorem Voice.map_snd_label (voices : List Voice) :
    (voices.map Voice.label).map Prod.snd = voices.map Voice.timing := by
  rw [List.map_map]
  rfl

/-- The cipher got the key, and the nonce and the payload of the message. -/
def Encryption.Under (aead : Aead Key Nonce) (key : Key) (use : Encryption) : Prop :=
  use.voice.encrypt aead key = some use

namespace Encryption.Under

variable {aead : Aead Key Nonce} {key : Key} {use use' : Encryption} {uses : List Encryption}

theorem cipher_eq (h : use.Under aead key) :
    use.key = key ∧ aead.encrypt use.key use.nonce use.voice.payload = some use.cipher := by
  obtain ⟨hKey, _, _, hCipher⟩ := Voice.encrypt_eq_some h
  exact ⟨hKey, hCipher⟩

theorem nonce_eq (h : use.Under aead key) :
    use.nonce = voiceNonce use.voice.timing.1 use.voice.timing.2 :=
  (Voice.encrypt_eq_some h).2.2.1

theorem nonce_eq_iff (h : use.Under aead key) (h' : use'.Under aead key) :
    use.nonce = use'.nonce ↔ use.voice.timing = use'.voice.timing := by
  rw [h.nonce_eq, h'.nonce_eq, voiceNonce_inj, Prod.ext_iff]

theorem nonces_nodup_iff (h : ∀ use ∈ uses, use.Under aead key) :
    (uses.map Encryption.nonce).Nodup ↔ ((uses.map Encryption.voice).map Voice.timing).Nodup := by
  have hInj : Function.Injective fun timing : UInt64 × UInt64 => voiceNonce timing.1 timing.2 := by
    intro x y h
    obtain ⟨hSequence, hStream⟩ := voiceNonce_inj.mp h
    exact Prod.ext hSequence hStream
  rw [← List.nodup_map_iff hInj, List.map_map, List.map_map]
  rw [List.map_congr_left fun use hMem => (h use hMem).nonce_eq]
  rfl

end Encryption.Under

theorem udpTx_under {aead : Aead Key Nonce} {key : Key} {mute : Bool} {sourceId : UInt32}
    {sequence streamTime : UInt64} {chunks : List Chunk} {use : Encryption}
    (h : use ∈ udpTx aead key mute sourceId sequence streamTime chunks) : use.Under aead key :=
  (mem_udpTx h).1

/-- The voice datagrams that were accepted from the other connections. -/
def acceptedOthers (tx : TaskId) (accepted : List (TaskId × Voice)) : List Voice :=
  (accepted.filter fun entry => entry.1 ≠ tx).map Prod.snd

theorem acceptedFor_sublist_others {k tx : TaskId} (hNe : k ≠ tx) (accepted : List (TaskId × Voice)) :
    (acceptedFor k accepted).Sublist (acceptedOthers tx accepted) := by
  refine List.Sublist.map _ (List.monotone_filter_right _ fun entry hEntry => ?_)
  have hTx : entry.1 = k := of_decide_eq_true hEntry
  exact decide_eq_true (hTx ▸ hNe)

namespace VoiceChannel

/-- A broadcast message is what a datagram decrypts to that was accepted for a task of its source id. -/
def Spoke (env : Env) (s : VoiceChannel) (accepted : List (TaskId × Voice)) (srcId : UInt32)
    (heard : Voice) : Prop :=
  ∃ (k : TaskId) (d : VoiceConnection) (datagram : Voice), s.spawned[k]? = some d ∧
    d.sourceId = srcId ∧ (k, datagram) ∈ accepted ∧ Decrypted env.aead d.cryptKey heard datagram

/-- Where the voice in the queues, in the broadcast and in the encryptions comes from. Nothing is said of
the source ids of the tasks. -/
structure Sourced (env : Env) (accepted : List (TaskId × Voice)) (history : List Output)
    (s : VoiceChannel) : Prop where
  queued : ∀ (tx : TaskId) (c : VoiceConnection), s.spawned[tx]? = some c →
    ∀ voice ∈ c.queued ++ s.pending tx, (tx, voice) ∈ accepted
  broadcast : ∀ item ∈ s.voice, s.Spoke env accepted item.1 item.2
  encrypted : ∀ (tx : TaskId), ∀ use ∈ history.filterMap (Output.encryption tx),
    ∃ (c : VoiceConnection) (srcId : UInt32), s.spawned[tx]? = some c ∧
      use.Under env.aead c.cryptKey ∧ srcId ≠ c.sourceId ∧ s.Spoke env accepted srcId use.voice

section Sources

variable {env : Env} {s s' : VoiceChannel} {e : Event} {o : List Output}
  {accepted : List (TaskId × Voice)} {history : List Output}

theorem Spoke.later {srcId : UInt32} {heard : Voice} (h : s.Spoke env accepted srcId heard)
    (hTasks : TasksEffect env s s') (more : List (TaskId × Voice)) :
    s'.Spoke env (accepted ++ more) srcId heard := by
  obtain ⟨k, d, datagram, hTask, hSource, hAccepted, hDecrypted⟩ := h
  obtain ⟨d', hTask', hSame⟩ := hTasks.same hTask
  refine ⟨k, d', datagram, hTask', hSame.sourceId.trans hSource, List.mem_append_left more hAccepted, ?_⟩
  rwa [hSame.cryptKey]

theorem Sourced.queued_step (h : Sourced env accepted history s) (hEffect : Effect env s e s' o)
    (i : TaskId) (d : VoiceConnection) (hTask : s'.spawned[i]? = some d) :
    ∀ voice ∈ d.queued ++ s'.pending i, (i, voice) ∈ accepted ++ (accepts env s e).toList := by
  have hKeep {d : VoiceConnection} (hTask : s.spawned[i]? = some d) :
      ∀ voice ∈ d.queued ++ [], (i, voice) ∈ accepted ++ (accepts env s e).toList := by
    intro voice hMem
    rw [List.append_nil] at hMem
    exact List.mem_append_left _ (h.queued i d hTask voice (List.mem_append_left _ hMem))
  have hSet {tx : TaskId} {c : VoiceConnection} {requests : List ControlRequest}
      (hOld : s.spawned[tx]? = some c)
      (hTask : (s.spawned.set tx { c with controlChan := requests })[i]? = some d) :
      ∀ voice ∈ d.queued ++ [], (i, voice) ∈ accepted ++ (accepts env s e).toList := by
    rcases (getElem?_set_iff hOld).mp hTask with ⟨rfl, rfl⟩ | ⟨_, hTask⟩
    · exact hKeep (d := c) hOld
    · exact hKeep hTask
  have hHanded {tx : TaskId} {sender : SocketAddr} {msg : InternalMsg}
      (hAccepts : Accepts env s e tx sender msg) (hKnown : ∃ c, s.spawned[tx]? = some c) :
      ∀ voice ∈ msg.voice?.toList, (tx, voice) ∈ accepted ++ (accepts env s e).toList := by
    intro voice hMem
    obtain ⟨c, hOld⟩ := hKnown
    rcases List.mem_append.mp (hAccepts.accepted.subset hMem) with hPending | hNew
    · exact List.mem_append_left _ (h.queued tx c hOld voice (List.mem_append_right _ hPending))
    · exact List.mem_append_right _ (mem_acceptedFor hNew)
  cases hEffect with
  | ticked millis => exact fun voice hMem => List.mem_append_left _ (h.queued i d hTask voice hMem)
  | task tx branch c outcome hOld hPoll =>
    intro voice hMem
    refine List.mem_append_left _ ?_
    rcases (getElem?_set_iff hOld).mp hTask with ⟨rfl, rfl⟩ | ⟨_, hTask⟩
    · refine h.queued i c hOld voice ?_
      rcases List.mem_append.mp hMem with hQueued | hPending
      · refine List.mem_append_left _ ?_
        rcases poll_speaks hPoll with ⟨_, hQueue⟩ | ⟨datagram, _, hQueue, _⟩
        · exact hQueue.subset hQueued
        · rw [hQueue]
          exact List.mem_cons_of_mem _ hQueued
      · exact List.mem_append_right _ hPending
    · exact h.queued i d hTask voice hMem
  | pushed e tx sender msg c hAccepts hOld =>
    rcases (getElem?_set_iff hOld).mp hTask with ⟨rfl, rfl⟩ | ⟨_, hTask⟩
    · intro voice hMem
      have hQueue : VoiceConnection.queued { c with msgRx := c.msgRx ++ [msg] } ++ [] =
          c.queued ++ msg.voice?.toList := by
        cases msg <;> simp [VoiceConnection.queued, InternalMsg.voice?, List.filterMap_cons]
      rcases List.mem_append.mp (hQueue ▸ hMem) with hQueued | hNew
      · exact hKeep hOld voice (List.mem_append_left _ hQueued)
      · exact hHanded hAccepts ⟨c, hOld⟩ voice hNew
    · exact hKeep hTask
  | held sender bytes sendOk tx msg c hAccepts hOld =>
    intro voice hMem
    rcases List.mem_append.mp hMem with hQueued | hPending
    · exact hKeep hTask voice (List.mem_append_left _ hQueued)
    · by_cases hEq : tx = i
      · subst hEq
        refine hHanded hAccepts ⟨c, hOld⟩ voice ?_
        cases msg with
        | voice => simpa [pending, waiting, InternalMsg.voice?] using hPending
        | ping => simp [pending, waiting] at hPending
      · cases msg <;> simp [pending, waiting, hEq] at hPending
  | opened clientId userName draw hAwait =>
    rw [turn_spawned] at hTask
    rcases opened_lookup hTask with hOld | ⟨_, rfl⟩
    · exact hKeep hOld
    · intro voice hMem
      cases hMem
  | bound clientId addr draw srcId conn c hAwait hClient hConn hOld => exact hSet hOld hTask
  | asked e tx c req await hAsks hSettled hOld hRunning hOn =>
    have hPending : ((s.asking tx c req).waiting await).pending i = [] := by
      cases await <;> first | rfl | cases hOn
    rw [hPending]
    exact hSet hOld hTask
  | _ => exact hKeep hTask

/-- What a task encrypts, it received of another source id. -/
theorem PollEffect.encryption {c : VoiceConnection} {now : Instant} {log : List (UInt32 × Voice)}
    {outcome : Outcome} (h : PollEffect env c now log outcome) {use : Encryption}
    (hMem : .encrypted use ∈ outcome.output) :
    use.Under env.aead c.cryptKey ∧ ∃ srcId, srcId ≠ c.sourceId ∧ (srcId, use.voice) ∈ log := by
  have hUse {voice : Voice} {srcId : UInt32} {slots receiver next : Nat}
      (hEncrypt : voice.encrypt env.aead c.cryptKey = some use)
      (hRecv : Broadcast.recv slots log receiver = .item (srcId, voice) next) (hOther : c.sourceId ≠ srcId) :
      use.Under env.aead c.cryptKey ∧ ∃ srcId, srcId ≠ c.sourceId ∧ (srcId, use.voice) ∈ log := by
    obtain ⟨_, rfl, _⟩ := Voice.encrypt_eq_some hEncrypt
    exact ⟨hEncrypt, srcId, hOther.symm, List.mem_of_getElem? (Broadcast.recv_item hRecv).1⟩
  cases h with
  | relayed p srcId voice next use' hPhase hRecv hOther hEncrypt =>
    obtain rfl : use = use' := by simpa using hMem
    exact hUse hEncrypt hRecv hOther
  | unsent p srcId voice next use' hPhase hRecv hOther hEncrypt =>
    obtain rfl : use = use' := by simpa using hMem
    exact hUse hEncrypt hRecv hOther
  | ponged => simp at hMem
  | _ => cases hMem

theorem Sourced.broadcast_step (h : Sourced env accepted history s) (hEffect : Effect env s e s' o) :
    ∀ item ∈ s'.voice, s'.Spoke env (accepted ++ (accepts env s e).toList) item.1 item.2 := by
  intro item hMem
  have hOld (hMem : item ∈ s.voice) : s'.Spoke env (accepted ++ (accepts env s e).toList) item.1 item.2 :=
    (h.broadcast item hMem).later hEffect.tasks _
  cases hEffect with
  | task tx branch c outcome hTask hPoll =>
    rw [polled_voice] at hMem
    rcases List.mem_append.mp hMem with hMem | hNew
    · exact hOld hMem
    · rcases poll_speaks hPoll with ⟨hNone, _⟩ | ⟨datagram, voice, hQueue, hVoice, hDecrypted⟩
      · simp [hNone] at hNew
      · obtain rfl : item = (c.sourceId, voice) := by simpa [hVoice] using hNew
        have hAccepted : (tx, datagram) ∈ accepted := by
          refine h.queued tx c hTask datagram (List.mem_append_left _ ?_)
          rw [hQueue]
          exact List.mem_cons_self
        refine ⟨tx, outcome.task, datagram, getElem?_set_here hTask, hPoll.sourceId,
          List.mem_append_left _ hAccepted, ?_⟩
        rwa [hPoll.cryptKey]
  | _ => exact hOld hMem

theorem Sourced.encrypted_step (h : Sourced env accepted history s) (hEffect : Effect env s e s' o)
    (tx : TaskId) (use : Encryption) (hMem : use ∈ (history ++ o).filterMap (Output.encryption tx)) :
    ∃ (c : VoiceConnection) (srcId : UInt32), s'.spawned[tx]? = some c ∧
      use.Under env.aead c.cryptKey ∧ srcId ≠ c.sourceId ∧
      s'.Spoke env (accepted ++ (accepts env s e).toList) srcId use.voice := by
  have hTasks := hEffect.tasks
  have hLater {c : VoiceConnection} {srcId : UInt32} (hTask : s.spawned[tx]? = some c)
      (hUnder : use.Under env.aead c.cryptKey) (hOther : srcId ≠ c.sourceId)
      (hSpoke : s.Spoke env accepted srcId use.voice) :
      ∃ (c : VoiceConnection) (srcId : UInt32), s'.spawned[tx]? = some c ∧
        use.Under env.aead c.cryptKey ∧ srcId ≠ c.sourceId ∧
        s'.Spoke env (accepted ++ (accepts env s e).toList) srcId use.voice := by
    obtain ⟨c', hTask', hSame⟩ := hTasks.same hTask
    refine ⟨c', srcId, hTask', ?_, ?_, hSpoke.later hTasks _⟩
    · rwa [hSame.cryptKey]
    · rwa [hSame.sourceId]
  rw [List.filterMap_append] at hMem
  rcases List.mem_append.mp hMem with hOld | hNew
  · obtain ⟨c, srcId, hTask, hUnder, hOther, hSpoke⟩ := h.encrypted tx use hOld
    exact hLater hTask hUnder hOther hSpoke
  · obtain ⟨out, hOut, hUse⟩ := List.mem_filterMap.mp hNew
    obtain rfl : out = .task tx (.encrypted use) := Output.encryption_eq_some hUse
    obtain ⟨c, outcome, hTask, hPoll, hOutput, _⟩ := hEffect.of_task hOut
    obtain ⟨hUnder, srcId, hOther, hLog⟩ := PollEffect.encryption hPoll hOutput
    exact hLater hTask hUnder hOther (h.broadcast _ hLog)

theorem sourced {roomId : Uuid} {now : Instant} {es : List Event} {tr : List Output}
    (hRun : Machine.run (VoiceChannel.step env) (new roomId now) es = some (s, tr)) :
    Sourced env (VoiceChannel.accepted env (new roomId now) es) tr s := by
  refine Machine.run_history (P := fun es s tr =>
    Sourced env (VoiceChannel.accepted env (new roomId now) es) tr s) ?_ ?_ hRun
  · refine ⟨fun tx c hTask => ?_, fun item hMem => ?_, fun tx use hMem => ?_⟩
    · cases hTask
    · cases hMem
    · cases hMem
  · intro es s₁ tr e s₂ o hFirst h hStep
    have hEffect := step_effect hStep
    have hCollect : VoiceChannel.accepted env (new roomId now) (es ++ [e]) =
        VoiceChannel.accepted env (new roomId now) es ++ (accepts env s₁ e).toList :=
      Machine.collect_snoc hFirst e
    rw [hCollect]
    exact ⟨h.queued_step hEffect, h.broadcast_step hEffect, h.encrypted_step hEffect⟩

end Sources

section Labels

variable {env : Env} {s : VoiceChannel} {accepted : List (TaskId × Voice)} {history : List Output}

theorem Relaying.labels_sublist (h : Relaying env accepted history s) {tx k : TaskId}
    {c d : VoiceConnection} (hTask : s.spawned[tx]? = some c) (hSpeaker : s.spawned[k]? = some d) :
    (((history.filterMap (Output.encrypts tx)).filter fun voice =>
        voice.sourceId = d.sourceId).map Voice.label).Sublist
      ((acceptedFor k accepted).map Voice.label) := by
  obtain ⟨read, hHeard, hRead⟩ := h.speaks k d hSpeaker
  have hRead' : (read.map Voice.label).Sublist ((acceptedFor k accepted).map Voice.label) :=
    ((List.sublist_append_left _ _).trans hRead).map Voice.label
  have hLabels : ((s.heard d.sourceId).map Voice.label).Sublist (read.map Voice.label) := by
    refine Subsequence.map_sublist ?_ hHeard
    rintro heard datagram ⟨_, _, rfl⟩
    rfl
  exact ((h.encrypts_sublist hTask d.sourceId).map Voice.label).trans (hLabels.trans hRead')

/-- Each encryption of the server is of its own accepted datagram of another connection. -/
theorem Relaying.labels_subperm (h : Relaying env accepted history s) {tx : TaskId}
    {c : VoiceConnection} (hTask : s.spawned[tx]? = some c) :
    ((history.filterMap (Output.encrypts tx)).map Voice.label).Subperm
      ((acceptedOthers tx accepted).map Voice.label) := by
  rw [List.subperm_ext_iff]
  intro label hMem
  obtain ⟨voice, hVoice, rfl⟩ := List.mem_map.mp hMem
  obtain ⟨hOther, k, d, hSpeaker, hSource⟩ := h.encrypts_other hTask hVoice
  have hNe : k ≠ tx := by
    rintro rfl
    cases hSpeaker.symm.trans hTask
    exact hOther hSource.symm
  have hFilter : ((history.filterMap (Output.encrypts tx)).map Voice.label).count voice.label =
      (((history.filterMap (Output.encrypts tx)).filter fun v =>
        v.sourceId = d.sourceId).map Voice.label).count voice.label := by
    simp only [List.count_eq_countP, List.countP_map, List.countP_filter]
    refine List.countP_congr fun v _ => ?_
    simp only [Function.comp_apply, beq_iff_eq, Bool.and_eq_true, decide_eq_true_eq]
    refine ⟨fun hLabel => ⟨hLabel, ?_⟩, And.left⟩
    exact (congrArg Prod.fst hLabel).trans hSource.symm
  rw [hFilter]
  exact ((h.labels_sublist hTask hSpeaker).trans
    ((acceptedFor_sublist_others hNe accepted).map Voice.label)).count_le voice.label

end Labels

/-- What the datagrams hold that were accepted from the other connections. -/
def saidOthers (env : Env) (s : VoiceChannel) (tx : TaskId) (accepted : List (TaskId × Voice)) : List Voice :=
  (accepted.filter fun entry => entry.1 ≠ tx).filterMap fun entry =>
    s.spawned[entry.1]?.bind fun d =>
      (decryptVoice env.aead d.cryptKey entry.2).map fun payload => { entry.2 with payload }

theorem Spoke.mem_saidOthers {env : Env} {s : VoiceChannel} {accepted : List (TaskId × Voice)}
    {srcId : UInt32} {heard : Voice} (h : s.Spoke env accepted srcId heard) {tx : TaskId}
    {c : VoiceConnection} (hTask : s.spawned[tx]? = some c) (hOther : srcId ≠ c.sourceId) :
    heard ∈ s.saidOthers env tx accepted := by
  obtain ⟨k, d, datagram, hSpeaker, rfl, hAccepted, payload, hDecrypt, rfl⟩ := h
  have hNe : k ≠ tx := by
    rintro rfl
    cases hSpeaker.symm.trans hTask
    exact hOther rfl
  refine List.mem_filterMap.mpr ⟨(k, datagram), List.mem_filter.mpr ⟨hAccepted, decide_eq_true hNe⟩, ?_⟩
  simp [hSpeaker, hDecrypt]

/-- Encryptions of different voice have different nonces. -/
def NoncesApart (uses : List Encryption) : Prop :=
  ∀ use ∈ uses, ∀ use' ∈ uses, use.voice.payload ≠ use'.voice.payload → use.nonce ≠ use'.nonce

/-- Messages with the same sequence and stream time carry the same voice. -/
def TimesApart (messages : List Voice) : Prop :=
  ∀ v ∈ messages, ∀ w ∈ messages, v.timing = w.timing → v.payload = w.payload

instance (messages : List Voice) : Decidable (TimesApart messages) :=
  inferInstanceAs (Decidable (∀ v ∈ messages, ∀ w ∈ messages, _ → _))

/-- The uses of the session key of one connection, by its owner and by the server. The nonces that the
cipher gets repeat exactly with sequence and stream time. The owner's do not, in its first `2 ^ 64`
messages; the server's come one each from datagrams accepted from other connections. So no nonce is used
for different voice while the owner's messages and these datagrams do not repeat sequence and stream time
with different voice. -/
theorem session_nonces (env : Env) (roomId : Uuid) (now : Instant) (es : List Event)
    (s : VoiceChannel) (tr : List Output)
    (hRun : Machine.run (VoiceChannel.step env) (new roomId now) es = some (s, tr))
    (t : TaskId) (c : VoiceConnection) (hTask : s.spawned[t]? = some c)
    (mute : Bool) (sequence streamTime : UInt64) (chunks : List Chunk) :
    let own := udpTx env.aead c.cryptKey mute c.sourceId sequence streamTime chunks
    let forwarded := tr.filterMap (Output.encryption t)
    let accepted := accepted env (new roomId now) es
    (∀ use ∈ own ++ forwarded, use.key = c.cryptKey ∧
      env.aead.encrypt use.key use.nonce use.voice.payload = some use.cipher) ∧
    (∀ use ∈ own ++ forwarded, ∀ use' ∈ own ++ forwarded,
      use.nonce = use'.nonce ↔ use.voice.timing = use'.voice.timing) ∧
    (chunks.length ≤ 2 ^ 64 → (own.map Encryption.nonce).Nodup) ∧
    (s.Distinct →
      ((forwarded.map Encryption.voice).map Voice.label).Subperm
        ((acceptedOthers t accepted).map Voice.label) ∧
      (((own.map Encryption.voice ++ acceptedOthers t accepted).map Voice.timing).Nodup →
        ((own ++ forwarded).map Encryption.nonce).Nodup)) ∧
    (TimesApart (own.map Encryption.voice ++ s.saidOthers env t accepted) → NoncesApart (own ++ forwarded)) := by
  intro own forwarded accepted
  have hSourced := sourced hRun
  have hUnder : ∀ use ∈ own ++ forwarded, use.Under env.aead c.cryptKey := by
    intro use hMem
    rcases List.mem_append.mp hMem with hOwn | hForwarded
    · exact udpTx_under hOwn
    · obtain ⟨c', _, hTask', hUse, _⟩ := hSourced.encrypted t use hForwarded
      cases hTask.symm.trans hTask'
      exact hUse
  have hIff : ∀ use ∈ own ++ forwarded, ∀ use' ∈ own ++ forwarded,
      use.nonce = use'.nonce ↔ use.voice.timing = use'.voice.timing :=
    fun use hUse use' hUse' => (hUnder use hUse).nonce_eq_iff (hUnder use' hUse')
  refine ⟨fun use hMem => (hUnder use hMem).cipher_eq, hIff, ?_, ?_, ?_⟩
  · intro hChunks
    have hOwn : ∀ use ∈ own, use.Under env.aead c.cryptKey := fun use hMem => udpTx_under hMem
    rw [Encryption.Under.nonces_nodup_iff hOwn]
    refine List.Nodup.of_map Prod.fst ?_
    rw [List.map_map, List.map_map]
    exact udpTx_sequence_nodup hChunks
  · intro hDistinct
    have hLabels := (relaying hRun hDistinct).labels_subperm hTask
    rw [show tr.filterMap (Output.encrypts t) = forwarded.map Encryption.voice from
      List.map_filterMap.symm] at hLabels
    refine ⟨hLabels, fun hNodup => ?_⟩
    rw [Encryption.Under.nonces_nodup_iff hUnder]
    obtain ⟨labels, hPerm, hSub⟩ := hLabels
    rw [List.map_append] at hNodup
    rw [List.map_append, List.map_append]
    have hTimings := hPerm.map Prod.snd
    have hOthers := hSub.map Prod.snd
    rw [Voice.map_snd_label] at hTimings hOthers
    have hKept := hNodup.sublist ((List.Sublist.refl _).append hOthers)
    exact (hTimings.append_left _).nodup_iff.mp hKept
  · intro hApart use hUse use' hUse' hOther hNonce
    have hMessage : ∀ use ∈ own ++ forwarded,
        use.voice ∈ own.map Encryption.voice ++ s.saidOthers env t accepted := by
      intro use hMem
      rcases List.mem_append.mp hMem with hOwn | hForwarded
      · exact List.mem_append_left _ (List.mem_map_of_mem hOwn)
      · obtain ⟨c', srcId, hTask', _, hSource, hSpoke⟩ := hSourced.encrypted t use hForwarded
        exact List.mem_append_right _ (hSpoke.mem_saidOthers hTask' hSource)
    exact hOther (hApart _ (hMessage use hUse) _ (hMessage use' hUse') ((hIff use hUse use' hUse').mp hNonce))

/-- One client speaks twice under numbers of its own, and another one hears it. -/
def conversed : List Event :=
  [.control (.openConnection 1 "a") ⟨10, [1]⟩, .control (.establish 1 ⟨.v4 1, 9⟩) ⟨0, []⟩,
    .task 0 .control, .resume,
    .control (.openConnection 2 "b") ⟨11, [2]⟩, .control (.establish 2 ⟨.v4 2, 9⟩) ⟨0, []⟩,
    .task 1 .control, .resume,
    .datagram ⟨.v4 1, 9⟩ ([18, 34, 8, 5, 16, 6, 24, 10, 34, 26, 1] ++ voiceNonce 5 6 ++ [7]) true,
    .datagram ⟨.v4 1, 9⟩ ([18, 34, 8, 6, 16, 7, 24, 10, 34, 26, 1] ++ voiceNonce 6 7 ++ [8]) true,
    .task 0 (.message true), .task 0 (.message true), .task 1 (.broadcast true),
    .task 1 (.broadcast true)]

/-- A server that decodes what its clients encode. -/
def decoding : Env where
  decode := ClientMessage.decode
  aead := tagged
  slots := 16

/-- The owner counts from the same sequence as the speaker, with other stream times. -/
theorem session_nonces_conversed : ∃ s tr c,
    Machine.run (VoiceChannel.step decoding) (new 7 0) conversed = some (s, tr) ∧
    s.spawned[1]? = some c ∧
    let own := udpTx tagged c.cryptKey false c.sourceId 5 0 [⟨[1], true⟩, ⟨[2], true⟩]
    let forwarded := tr.filterMap (Output.encryption 1)
    own.length = 2 ∧ forwarded.length = 2 ∧ ((own ++ forwarded).map Encryption.nonce).Nodup ∧
      NoncesApart (own ++ forwarded) := by
  have hAny : (Machine.run (VoiceChannel.step decoding) (new 7 0) conversed).any (fun last =>
      last.1.spawned[1]?.any fun c =>
        let own := udpTx tagged c.cryptKey false c.sourceId 5 0 [⟨[1], true⟩, ⟨[2], true⟩]
        let accepted := accepted decoding (new 7 0) conversed
        decide ((last.1.spawned.map VoiceConnection.sourceId).Nodup ∧ own.length = 2 ∧
          (last.2.filterMap (Output.encryption 1)).length = 2 ∧
          ((own.map Encryption.voice ++ acceptedOthers 1 accepted).map Voice.timing).Nodup ∧
          TimesApart (own.map Encryption.voice ++ last.1.saidOthers decoding 1 accepted))) = true := by
    decide +kernel
  obtain ⟨⟨s, tr⟩, hRun, hTasks⟩ := (Option.any_eq_true _ _).mp hAny
  obtain ⟨c, hTask, hAll⟩ := (Option.any_eq_true _ _).mp hTasks
  obtain ⟨hSources, hOwn, hForwarded, hTimings, hApart⟩ := of_decide_eq_true hAll
  obtain ⟨_, _, _, hDistinct, hTimes⟩ := session_nonces decoding 7 0 conversed s tr hRun 1 c hTask false 5 0
    [⟨[1], true⟩, ⟨[2], true⟩]
  exact ⟨s, tr, c, hRun, hTask, hOwn, hForwarded, (hDistinct (distinct_of_nodup hSources)).2 hTimings,
    hTimes hApart⟩

/-- A speaker that repeats sequence and stream time makes the server repeat a nonce. -/
theorem not_session_nonces : ¬ ∀ (env : Env) (roomId : Uuid) (now : Instant) (es : List Event)
    (s : VoiceChannel) (tr : List Output) (t : TaskId) (c : VoiceConnection) (mute : Bool)
    (sequence streamTime : UInt64) (chunks : List Chunk), env.aead.Lawful →
    Machine.run (VoiceChannel.step env) (new roomId now) es = some (s, tr) →
    s.Distinct → s.spawned[t]? = some c → chunks.length ≤ 2 ^ 64 →
    NoncesApart (udpTx env.aead c.cryptKey mute c.sourceId sequence streamTime chunks ++
      tr.filterMap (Output.encryption t)) := by
  intro hAll
  obtain ⟨s, tr, hRun, hDistinct, ⟨c, hTask⟩, hUses⟩ := overheard_run
  have hApart := hAll .bare 7 0 overheard s tr 1 c true 0 0 [] tagged_lawful hRun hDistinct hTask (by decide)
  rw [udpTx, List.nil_append] at hApart
  obtain ⟨use, use', hPair⟩ := List.length_eq_two.mp
    ((List.length_map _).symm.trans (congrArg List.length hUses))
  rw [hPair] at hUses hApart
  simp only [List.map_cons, List.map_nil, List.cons.injEq, Prod.mk.injEq, and_true] at hUses
  obtain ⟨⟨hNonce, hVoice⟩, hNonce', hVoice'⟩ := hUses
  refine hApart use (by simp) use' (by simp) ?_ (hNonce.trans hNonce'.symm)
  rw [hVoice, hVoice']
  decide

end VoiceChannel

end Voices.VoiceServer
