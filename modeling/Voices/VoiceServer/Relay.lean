import Voices.Semantics.Subsequence
import Voices.VoiceServer.Destination

/-!
# From a datagram of one client to the datagrams for the others

A voice datagram is accepted by the forwarder, queued for its speaker's task,
decrypted into the broadcast, and encrypted again by every other task. Each
stage passes a subsequence of what it was given on. `Relaying` carries the
stages through all interleavings, and the result joins them.
-/

namespace Voices.VoiceServer

open Semantics Std

def InternalMsg.voice? : InternalMsg → Option Voice
  | .voice v => some v
  | .ping _ => none

def ServerMessage.voice? (message : ServerMessage) : Option Voice :=
  match message.message with
  | some (.voice v) => some v
  | _ => none

def VoiceConnection.queued (c : VoiceConnection) : List Voice := c.msgRx.filterMap InternalMsg.voice?

/-- A broadcast message, and the datagram it was decrypted from. -/
def Decrypted (aead : Aead Key Nonce) (key : Key) (heard datagram : Voice) : Prop :=
  ∃ payload, decryptVoice aead key datagram = some payload ∧ heard = { datagram with payload }

/-- A message sent to a client, and the broadcast message that was encrypted for it. -/
def Encrypted (aead : Aead Key Nonce) (key : Key) (sent heard : Voice) : Prop :=
  ∃ payload, encryptVoice aead key heard = some payload ∧ sent = { heard with payload }

def Output.encryption (tx : TaskId) : Output → Option Encryption
  | .task tx' (.encrypted use) => if tx' = tx then some use else none
  | _ => none

theorem Output.encryption_eq_some {tx : TaskId} {out : Output} {use : Encryption}
    (h : out.encryption tx = some use) : out = .task tx (.encrypted use) := by
  unfold Output.encryption at h
  split at h
  · split at h <;> cases h
    rename_i hEq
    rw [hEq]
  · cases h

/-- The voice that a task encrypts. -/
def Output.encrypts (tx : TaskId) (out : Output) : Option Voice := (out.encryption tx).map Encryption.voice

def Output.relays (tx : TaskId) : Output → Option Voice
  | .task tx' (.sent _ message) => if tx' = tx then message.voice? else none
  | _ => none

def acceptedFor (tx : TaskId) (accepted : List (TaskId × Voice)) : List Voice :=
  (accepted.filter fun entry => entry.1 = tx).map Prod.snd

namespace VoiceChannel

/-- A voice datagram whose source id has a record that is bound to its sender, and the task of
this record. -/
def accepts (env : Env) (s : VoiceChannel) : Event → Option (TaskId × Voice)
  | .datagram sender bytes _ =>
    match s.await, env.decode bytes with
    | .event, some ⟨some (.voice voice)⟩ =>
      match s.forwarder.connections[voice.sourceId]? with
      | some conn =>
        if conn.addr.any (sameAddr · sender) then some (conn.tx, voice) else none
      | none => none
    | _, _ => none
  | _ => none

/-- The voice messages of a run that came from the bound address of their source id. -/
def accepted (env : Env) (s : VoiceChannel) (es : List Event) : List (TaskId × Voice) :=
  Machine.collect (step env) (accepts env) s es

/-- The datagram that the forwarder holds until there is room. -/
def pending (s : VoiceChannel) (tx : TaskId) : List Voice :=
  match s.await with
  | .forward tx' _ (.voice voice) => if tx' = tx then [voice] else []
  | _ => []

/-- What the broadcast carries of one source id. -/
def heard (s : VoiceChannel) (srcId : UInt32) : List Voice :=
  (s.voice.filter fun item => item.1 = srcId).map Prod.snd

variable {env : Env} {s s' : VoiceChannel} {e : Event} {o : List Output}

/-- A speaker's broadcast messages come from accepted datagrams that have left its queue. -/
def Spoken (aead : Aead Key Nonce) (key : Key) (heard queue accepted : List Voice) : Prop :=
  ∃ read, List.SublistForall₂ (Decrypted aead key) heard read ∧ (read ++ queue).Sublist accepted

/-- A listener encrypts, in order, what it received of the others, and sends no more than that. -/
structure Listening (aead : Aead Key Nonce) (history : List Output) (log : List (UInt32 × Voice))
    (tx : TaskId) (c : VoiceConnection) : Prop where
  seen : ∃ start got, (∀ p, c.phase = .peered p → Broadcast.Seen log start p.voiceRx got) ∧
    (∀ deadline, c.phase = .waiting deadline → got = []) ∧ got.Sublist log ∧
    (∀ item ∈ got, item.1 ≠ c.sourceId) ∧
    history.filterMap (Output.encrypts tx) = got.map Prod.snd
  sent : List.SublistForall₂ (Encrypted aead c.cryptKey) (history.filterMap (Output.relays tx))
    (history.filterMap (Output.encrypts tx))

structure Relaying (env : Env) (accepted : List (TaskId × Voice)) (history : List Output)
    (s : VoiceChannel) : Prop where
  broadcast : ∀ item ∈ s.voice, ∃ (tx : TaskId) (c : VoiceConnection), s.spawned[tx]? = some c ∧
    c.sourceId = item.1
  known : ∀ entry ∈ accepted, ∃ c : VoiceConnection, s.spawned[entry.1]? = some c ∧
    entry.2.sourceId = c.sourceId
  speaks : ∀ (tx : TaskId) (c : VoiceConnection), s.spawned[tx]? = some c →
    Spoken env.aead c.cryptKey (s.heard c.sourceId) (c.queued ++ s.pending tx) (acceptedFor tx accepted)
  listens : ∀ (tx : TaskId) (c : VoiceConnection), s.spawned[tx]? = some c →
    Listening env.aead history s.voice tx c
  quiet : ∀ tx, s.spawned.length ≤ tx → history.filterMap (Output.encrypts tx) = [] ∧
    history.filterMap (Output.relays tx) = []

theorem Spoken.mono {aead : Aead Key Nonce} {key : Key} {heard queue queue' accepted accepted' : List Voice}
    (h : Spoken aead key heard queue accepted) (hQueue : queue'.Sublist queue)
    (hAccepted : accepted.Sublist accepted') : Spoken aead key heard queue' accepted' := by
  obtain ⟨read, hHeard, hRead⟩ := h
  exact ⟨read, hHeard, ((List.Sublist.refl read).append hQueue).trans (hRead.trans hAccepted)⟩

theorem Spoken.read {aead : Aead Key Nonce} {key : Key} {heard queue accepted : List Voice}
    {datagram voice : Voice} (h : Spoken aead key heard (datagram :: queue) accepted)
    (hDecrypted : Decrypted aead key voice datagram) :
    Spoken aead key (heard ++ [voice]) queue accepted := by
  obtain ⟨read, hHeard, hRead⟩ := h
  refine ⟨read ++ [datagram], Subsequence.snoc hHeard hDecrypted, ?_⟩
  rwa [List.append_assoc, List.singleton_append]

theorem Spoken.hand {aead : Aead Key Nonce} {key : Key}
    {heard queue pending accepted more handed : List Voice}
    (h : Spoken aead key heard (queue ++ pending) accepted) (hHanded : handed.Sublist (pending ++ more)) :
    Spoken aead key heard (queue ++ handed) (accepted ++ more) := by
  obtain ⟨read, hHeard, hRead⟩ := h
  refine ⟨read, hHeard, ?_⟩
  calc
      read ++ (queue ++ handed) = read ++ queue ++ handed := (List.append_assoc _ _ _).symm
      List.Sublist _ (read ++ queue ++ (pending ++ more)) := (List.Sublist.refl _).append hHanded
      _ = read ++ (queue ++ pending) ++ more := by simp only [List.append_assoc]
      List.Sublist _ (accepted ++ more) := hRead.append (List.Sublist.refl _)

theorem acceptedFor_append (tx : TaskId) (xs ys : List (TaskId × Voice)) :
    acceptedFor tx (xs ++ ys) = acceptedFor tx xs ++ acceptedFor tx ys := by
  simp [acceptedFor]

theorem acceptedFor_sublist (tx : TaskId) (xs ys : List (TaskId × Voice)) :
    (acceptedFor tx xs).Sublist (acceptedFor tx (xs ++ ys)) := by
  rw [acceptedFor_append]
  exact List.sublist_append_left _ _

/-- A task speaks by decrypting the head of its queue; else its queue only shrinks. -/
theorem poll_speaks {c : VoiceConnection} {now : Instant} {log : List (UInt32 × Voice)}
    {outcome : Outcome} (h : PollEffect env c now log outcome) :
    (outcome.voice = none ∧ outcome.task.queued.Sublist c.queued) ∨
      ∃ datagram voice, c.queued = datagram :: outcome.task.queued ∧
        outcome.voice = some (c.sourceId, voice) ∧ Decrypted env.aead c.cryptKey voice datagram := by
  cases h with
  | finished | stopped | unsent => exact .inl ⟨rfl, List.nil_sublist _⟩
  | spoke p voice rest payload hPhase hQueue hDecrypt =>
    exact .inr ⟨voice, _, by simp [VoiceConnection.queued, hQueue, InternalMsg.voice?], rfl, payload,
      hDecrypt, rfl⟩
  | ponged p ping rest hPhase hQueue =>
    refine .inl ⟨rfl, ?_⟩
    simp [VoiceConnection.queued, hQueue, List.filterMap_cons, InternalMsg.voice?]
  | accepted | answered | lagged | skipped | relayed => exact .inl ⟨rfl, List.Sublist.refl _⟩

theorem polled_heard (tx : TaskId) (outcome : Outcome) (srcId : UInt32) :
    (s.polled tx outcome).heard srcId =
      s.heard srcId ++ (outcome.voice.toList.filter fun item => item.1 = srcId).map Prod.snd := by
  simp [heard]

theorem accepts_bound {tx : TaskId} {voice : Voice} (h : accepts env s e = some (tx, voice)) :
    ∃ conn, s.forwarder.connections[voice.sourceId]? = some conn ∧ conn.tx = tx := by
  unfold accepts at h
  split at h
  · split at h
    · split at h
      · rename_i conn hConn
        split at h
        · cases h
          exact ⟨conn, hConn, rfl⟩
        · cases h
      · cases h
    · cases h
  · cases h

theorem accepts_received {tx : TaskId} {sender : SocketAddr} {bytes : List UInt8} {sendOk : Bool}
    {voice : Voice} (hAwait : s.await = .event)
    (hDecode : env.decode bytes = some ⟨some (.voice voice)⟩)
    (hBound : s.Bound tx sender (.voice voice)) :
    accepts env s (.datagram sender bytes sendOk) = some (tx, voice) := by
  obtain ⟨conn, addr, hConn, rfl, hAddr, hSame⟩ := hBound
  have hConn' : s.forwarder.connections[voice.sourceId]? = some conn := hConn
  simp [accepts, hAwait, hDecode, hConn', hAddr, hSame]

theorem Accepts.accepted {tx : TaskId} {sender : SocketAddr} {msg : InternalMsg}
    (h : Accepts env s e tx sender msg) :
    (msg.voice?.toList).Sublist (s.pending tx ++ acceptedFor tx (accepts env s e).toList) := by
  cases msg with
  | ping => exact List.nil_sublist _
  | voice voice =>
    cases h with
    | received tx sender bytes sendOk msg hAwait hDecode hBound =>
      rw [accepts_received hAwait hDecode hBound]
      simp [InternalMsg.voice?, acceptedFor]
    | held tx sender msg hAwait => simp [pending, hAwait, InternalMsg.voice?]

section Steps

variable {accepted : List (TaskId × Voice)} {history : List Output}

theorem Relaying.speaks_polled (h : Relaying env accepted history s) (hDistinct : s.Distinct)
    {tx : TaskId} {c : VoiceConnection} {outcome : Outcome} (hOld : s.spawned[tx]? = some c)
    (hPoll : PollEffect env c s.now s.voice outcome) (i : TaskId) (d : VoiceConnection)
    (hTask : (s.polled tx outcome).spawned[i]? = some d) :
    Spoken env.aead d.cryptKey ((s.polled tx outcome).heard d.sourceId)
      (d.queued ++ s.pending i) (acceptedFor i accepted) := by
  rw [polled_spawned, getElem?_set_iff hOld] at hTask
  rw [polled_heard]
  rcases hTask with ⟨rfl, rfl⟩ | ⟨hNe, hTask⟩
  · have hSpeaks := h.speaks i c hOld
    rw [hPoll.cryptKey, hPoll.sourceId]
    rcases poll_speaks hPoll with ⟨hNone, hQueue⟩ | ⟨datagram, voice, hQueue, hVoice, hDecrypted⟩
    · rw [hNone]
      simpa using hSpeaks.mono (hQueue.append (List.Sublist.refl _)) (List.Sublist.refl _)
    · rw [hQueue, List.cons_append] at hSpeaks
      rw [hVoice]
      simpa using hSpeaks.read hDecrypted
  · -- another task speaks under another source id
    have hOther : outcome.voice.toList.filter (fun item => item.1 = d.sourceId) = [] := by
      rcases poll_speaks hPoll with ⟨hNone, _⟩ | ⟨datagram, voice, _, hVoice, _⟩
      · simp [hNone]
      · have hSource : c.sourceId ≠ d.sourceId := fun hEq => hNe (hDistinct i tx d c hTask hOld hEq.symm)
        simp [hVoice, hSource]
    rw [hOther]
    simpa using h.speaks i d hTask

theorem Relaying.speaks_pushed (h : Relaying env accepted history s) {tx : TaskId}
    {sender : SocketAddr} {msg : InternalMsg} {c : VoiceConnection}
    (hAccepts : Accepts env s e tx sender msg) (hOld : s.spawned[tx]? = some c) (i : TaskId)
    (d : VoiceConnection)
    (hTask : (s.spawned.set tx { c with msgRx := c.msgRx ++ [msg] })[i]? = some d) :
    Spoken env.aead d.cryptKey (s.heard d.sourceId) d.queued
      (acceptedFor i (accepted ++ (accepts env s e).toList)) := by
  rw [getElem?_set_iff hOld] at hTask
  rcases hTask with ⟨rfl, rfl⟩ | ⟨_, hTask⟩
  · have hQueue : VoiceConnection.queued { c with msgRx := c.msgRx ++ [msg] } =
        c.queued ++ msg.voice?.toList := by
      cases msg <;> simp [VoiceConnection.queued, InternalMsg.voice?, List.filterMap_cons]
    rw [hQueue, acceptedFor_append]
    exact (h.speaks i c hOld).hand hAccepts.accepted
  · refine (h.speaks i d hTask).mono ?_ (acceptedFor_sublist _ _ _)
    exact List.sublist_append_left _ _

theorem Relaying.speaks_held (h : Relaying env accepted history s) {tx : TaskId}
    {sender : SocketAddr} {msg : InternalMsg} (hAccepts : Accepts env s e tx sender msg) (i : TaskId)
    (d : VoiceConnection) (hTask : s.spawned[i]? = some d) :
    Spoken env.aead d.cryptKey (s.heard d.sourceId)
      (d.queued ++ (s.waiting (.forward tx sender msg)).pending i)
      (acceptedFor i (accepted ++ (accepts env s e).toList)) := by
  by_cases hEq : tx = i
  · subst hEq
    have hPending : (s.waiting (.forward tx sender msg)).pending tx = msg.voice?.toList := by
      cases msg <;> simp [pending, waiting, InternalMsg.voice?]
    rw [hPending, acceptedFor_append]
    exact (h.speaks tx d hTask).hand hAccepts.accepted
  · have hPending : (s.waiting (.forward tx sender msg)).pending i = [] := by
      cases msg <;> simp [pending, waiting, hEq]
    rw [hPending]
    exact (h.speaks i d hTask).mono ((List.Sublist.refl _).append (List.nil_sublist _))
      (acceptedFor_sublist _ _ _)

theorem Relaying.speaks_opened (h : Relaying env accepted history s) {clientId : Uuid}
    {userName : String} {draw : Draw} (hDistinct : s'.Distinct)
    (hTasks : s'.spawned = (s.opened clientId userName draw).spawned) (i : TaskId) (d : VoiceConnection)
    (hTask : (s.opened clientId userName draw).spawned[i]? = some d) :
    Spoken env.aead d.cryptKey (s.heard d.sourceId) d.queued (acceptedFor i accepted) := by
  rcases opened_lookup hTask with hOld | ⟨_, rfl⟩
  · exact (h.speaks i d hOld).mono (List.sublist_append_left _ _) (List.Sublist.refl _)
  · have hSilent : s.heard draw.sourceId = [] := by
      unfold heard
      rw [List.map_eq_nil_iff, List.filter_eq_nil_iff]
      intro item hMem hEq
      obtain ⟨tx, c, hOld, hSource⟩ := h.broadcast item hMem
      exact hDistinct.fresh hTasks hOld (hSource.trans (of_decide_eq_true hEq))
    refine ⟨[], ?_, List.nil_sublist _⟩
    rw [show s.heard (s.fresh clientId draw).sourceId = [] from hSilent]
    exact .nil

theorem Relaying.speaks_step (h : Relaying env accepted history s) (hDistinct : s'.Distinct)
    (hEffect : Effect env s e s' o) (i : TaskId) (d : VoiceConnection)
    (hTask : s'.spawned[i]? = some d) :
    Spoken env.aead d.cryptKey (s'.heard d.sourceId) (d.queued ++ s'.pending i)
      (acceptedFor i (accepted ++ (accepts env s e).toList)) := by
  have hMore := acceptedFor_sublist i accepted (accepts env s e).toList
  have hTasks : TasksEffect env s s' := hEffect.tasks
  have hKeep (hTask : s.spawned[i]? = some d) :
      Spoken env.aead d.cryptKey (s.heard d.sourceId) (d.queued ++ [])
        (acceptedFor i (accepted ++ (accepts env s e).toList)) :=
    (h.speaks i d hTask).mono ((List.Sublist.refl _).append (List.nil_sublist _)) hMore
  have hSet {tx : TaskId} {c : VoiceConnection} {requests : List ControlRequest}
      (hOld : s.spawned[tx]? = some c)
      (hTask : (s.spawned.set tx { c with controlChan := requests })[i]? = some d) :
      Spoken env.aead d.cryptKey (s.heard d.sourceId) (d.queued ++ [])
        (acceptedFor i (accepted ++ (accepts env s e).toList)) := by
    rcases (getElem?_set_iff hOld).mp hTask with ⟨rfl, rfl⟩ | ⟨_, hTask⟩
    · exact (h.speaks i c hOld).mono ((List.Sublist.refl _).append (List.nil_sublist _)) hMore
    · exact hKeep hTask
  cases hEffect with
  | ticked millis => exact (h.speaks i d hTask).mono (List.Sublist.refl _) hMore
  | task tx branch c outcome hOld hPoll =>
    exact (h.speaks_polled (hDistinct.before hTasks) hOld hPoll i d hTask).mono (List.Sublist.refl _)
      hMore
  | pushed e tx sender msg c hAccepts hOld =>
    exact (h.speaks_pushed hAccepts hOld i d hTask).mono (by simp [pending]) (List.Sublist.refl _)
  | held sender bytes sendOk tx msg c hAccepts hOld => exact h.speaks_held hAccepts i d hTask
  | opened clientId userName draw hAwait =>
    exact (h.speaks_opened hDistinct (turn_spawned _) i d hTask).mono (by simp [pending]) hMore
  | bound clientId addr draw srcId conn c hAwait hClient hConn hOld => exact hSet hOld hTask
  | asked e tx c req await hAsks hSettled hOld hRunning hOn =>
    have hPending : ((s.asking tx c req).waiting await).pending i = [] := by
      cases await <;> first | rfl | cases hOn
    rw [hPending]
    exact hSet hOld hTask
  | _ => exact hKeep hTask

/-- Nothing was received: the log and the history only grow by what is of no concern. -/
theorem Listening.keep {aead : Aead Key Nonce} {log : List (UInt32 × Voice)} {tx : TaskId}
    {c c' : VoiceConnection} (h : Listening aead history log tx c) (hSame : c.Same c')
    (hPeered : ∀ p', c'.phase = .peered p' → ∃ p, c.phase = .peered p ∧ p'.voiceRx = p.voiceRx)
    (hWaiting : ∀ deadline, c'.phase = .waiting deadline → c.phase = .waiting deadline)
    (more : List (UInt32 × Voice)) (hEncrypts : o.filterMap (Output.encrypts tx) = [])
    (hRelays : o.filterMap (Output.relays tx) = []) :
    Listening aead (history ++ o) (log ++ more) tx c' := by
  obtain ⟨⟨start, got, hSeen, hNone, hLog, hOther, hHistory⟩, hSent⟩ := h
  refine ⟨⟨start, got, ?_, ?_, ?_, ?_, ?_⟩, ?_⟩
  · intro p' hPhase
    obtain ⟨p, hp, hRx⟩ := hPeered p' hPhase
    rw [hRx]
    exact (hSeen p hp).send more
  · exact fun deadline hPhase => hNone deadline (hWaiting deadline hPhase)
  · exact hLog.trans (List.sublist_append_left _ _)
  · rwa [hSame.sourceId]
  · rw [List.filterMap_append, hEncrypts, List.append_nil, hHistory]
  · rw [List.filterMap_append, List.filterMap_append, hEncrypts, hRelays, List.append_nil,
      List.append_nil, hSame.cryptKey]
    exact hSent

theorem Listening.move {aead : Aead Key Nonce} {log : List (UInt32 × Voice)} {tx : TaskId}
    {c c' : VoiceConnection} (h : Listening aead history log tx c) (hSame : c.Same c') {p : Peered}
    (hPhase : c.phase = .peered p) {p' : Peered} (hPhase' : c'.phase = .peered p')
    (hMove : ∀ start got, Broadcast.Seen log start p.voiceRx got →
      Broadcast.Seen log start p'.voiceRx got) : Listening aead history log tx c' := by
  obtain ⟨⟨start, got, hSeen, hNone, hLog, hOther, hHistory⟩, hSent⟩ := h
  refine ⟨⟨start, got, ?_, ?_, hLog, ?_, hHistory⟩, ?_⟩
  · intro q hq
    cases hPhase'.symm.trans hq
    exact hMove start got (hSeen p hPhase)
  · intro deadline hWaiting
    cases hPhase'.symm.trans hWaiting
  · rwa [hSame.sourceId]
  · rwa [hSame.cryptKey]

theorem Listening.take {aead : Aead Key Nonce} {log : List (UInt32 × Voice)} {tx : TaskId}
    {c c' : VoiceConnection} (h : Listening aead history log tx c) (hSame : c.Same c') {p : Peered}
    (hPhase : c.phase = .peered p) {slots next : Nat} {srcId : UInt32} {voice : Voice}
    (hRecv : Broadcast.recv slots log p.voiceRx = .item (srcId, voice) next)
    (hOther : c.sourceId ≠ srcId) (hPeered : ∀ p', c'.phase = .peered p' → p'.voiceRx = next)
    (hWaiting : ∀ deadline, c'.phase ≠ .waiting deadline)
    (hEncrypts : o.filterMap (Output.encrypts tx) = [voice])
    (hRelays : o.filterMap (Output.relays tx) = [] ∨
      ∃ sent, o.filterMap (Output.relays tx) = [sent] ∧ Encrypted aead c.cryptKey sent voice) :
    Listening aead (history ++ o) log tx c' := by
  obtain ⟨⟨start, got, hSeen, hNone, hLog, hOthers, hHistory⟩, hSent⟩ := h
  have hTaken := (hSeen p hPhase).item hRecv
  refine ⟨⟨start, got ++ [(srcId, voice)], ?_, ?_, hTaken.sublist_log, ?_, ?_⟩, ?_⟩
  · intro p' hp'
    rwa [hPeered p' hp']
  · exact fun deadline hp' => absurd hp' (hWaiting deadline)
  · intro item hMem
    rw [hSame.sourceId]
    rcases List.mem_append.mp hMem with hOld | hNew
    · exact hOthers item hOld
    · rw [List.mem_singleton.mp hNew]
      exact hOther.symm
  · rw [List.filterMap_append, hEncrypts, hHistory, List.map_append, List.map_singleton]
  · rw [List.filterMap_append, List.filterMap_append, hEncrypts, hSame.cryptKey]
    rcases hRelays with hNothing | ⟨sent, hOne, hEncrypted⟩
    · rw [hNothing, List.append_nil]
      exact Subsequence.sublist_right hSent (List.sublist_append_left _ _)
    · rw [hOne]
      exact Subsequence.snoc hSent hEncrypted

theorem Listening.subscribe {aead : Aead Key Nonce} {log : List (UInt32 × Voice)} {tx : TaskId}
    {c c' : VoiceConnection} (h : Listening aead history log tx c) (hSame : c.Same c')
    {deadline : Instant} (hPhase : c.phase = .waiting deadline) {p : Peered}
    (hPhase' : c'.phase = .peered p) (hRx : p.voiceRx = log.length) :
    Listening aead history log tx c' := by
  obtain ⟨⟨start, got, hSeen, hNone, hLog, hOthers, hHistory⟩, hSent⟩ := h
  cases hNone deadline hPhase
  refine ⟨⟨log.length, [], ?_, fun _ _ => rfl, hLog, by simp, hHistory⟩, by rwa [hSame.cryptKey]⟩
  intro p' hp'
  cases hPhase'.symm.trans hp'
  rw [hRx]
  exact .subscribe log

theorem Listening.poll {now : Instant} {log : List (UInt32 × Voice)} {tx : TaskId}
    {c : VoiceConnection} {outcome : Outcome} (h : Listening env.aead history log tx c)
    (hPoll : PollEffect env c now log outcome) :
    Listening env.aead (history ++ outcome.output.map (Output.task tx)) (log ++ outcome.voice.toList) tx
      outcome.task := by
  have hSame : c.Same outcome.task := ⟨hPoll.sourceId, hPoll.clientId, hPoll.cryptKey⟩
  cases hPoll with
  | finished | stopped => exact h.keep hSame (by simp) (by simp) _ rfl rfl
  | accepted initTimeout addr rest hPhase hControl =>
    simpa using h.subscribe hSame hPhase rfl rfl
  | answered request rest hRunning hControl =>
    exact h.keep hSame (fun p hp => ⟨p, hp, rfl⟩) (fun _ hp => hp) _ rfl rfl
  | spoke p voice rest payload hPhase =>
    refine h.keep hSame ?_ (by simp) _ rfl rfl
    rintro p' hp'
    cases hp'
    exact ⟨p, hPhase, rfl⟩
  | ponged p ping rest hPhase =>
    refine h.keep hSame ?_ (by simp) _ rfl (by simp [Output.relays, ServerMessage.voice?, ServerMessage.pong])
    rintro p' hp'
    cases hp'
    exact ⟨p, hPhase, rfl⟩
  | lagged p next hPhase hRecv =>
    simpa using h.move hSame hPhase rfl fun _ _ hSeen => hSeen.lagged hRecv
  | skipped p voice next hPhase hRecv =>
    simpa using h.move hSame hPhase rfl fun _ _ hSeen => hSeen.passed hRecv
  | relayed p rxPktId voice next use hPhase hRecv hOther hEncrypt =>
    obtain ⟨_, hVoice, _⟩ := Voice.encrypt_eq_some hEncrypt
    have hRelays : [Output.task tx (.encrypted use),
        .task tx (.sent p.addr (.voice { voice with payload := use.cipher }))].filterMap (Output.relays tx) =
        [{ voice with payload := use.cipher }] := by
      simp [Output.relays, ServerMessage.voice, ServerMessage.voice?, List.filterMap_cons]
    rw [Option.toList_none, List.append_nil]
    refine h.take hSame hPhase hRecv hOther ?_ (by simp) (by simp [Output.encrypts, Output.encryption, hVoice])
      (.inr ⟨_, hRelays, use.cipher, Voice.encryptVoice_of_encrypt hEncrypt, rfl⟩)
    rintro p' hp'
    cases hp'
    rfl
  | unsent p rxPktId voice next use hPhase hRecv hOther hEncrypt =>
    obtain ⟨_, hVoice, _⟩ := Voice.encrypt_eq_some hEncrypt
    rw [Option.toList_none, List.append_nil]
    exact h.take hSame hPhase hRecv hOther (by simp) (by simp)
      (by simp [Output.encrypts, Output.encryption, hVoice]) (.inl (by simp [Output.relays]))

theorem task_silent {tx i : TaskId} (hNe : tx ≠ i) (output : List TaskOutput) :
    (output.map (Output.task tx)).filterMap (Output.encrypts i) = [] ∧
      (output.map (Output.task tx)).filterMap (Output.relays i) = [] := by
  simp only [List.filterMap_eq_nil_iff, List.mem_map]
  constructor <;>
  · rintro _ ⟨output, _, rfl⟩
    cases output <;> simp [Output.encrypts, Output.encryption, Output.relays, hNe]

theorem quiet_silent {output : List Output} (hQuiet : ∀ o ∈ output, o.quiet = true)
    (result : EventResult) (i : TaskId) :
    (output ++ [Output.returned result]).filterMap (Output.encrypts i) = [] ∧
      (output ++ [Output.returned result]).filterMap (Output.relays i) = [] := by
  simp only [List.filterMap_eq_nil_iff, List.mem_append, List.mem_singleton]
  constructor <;>
  · rintro out (hMem | rfl)
    · have hQuiet := hQuiet out hMem
      cases out <;> first | rfl | cases hQuiet
    · rfl

theorem Relaying.listens_old (h : Relaying env accepted history s) {i : TaskId} {c d : VoiceConnection}
    (hTask : s.spawned[i]? = some c) (hSame : c.Same d) (hPhase : d.phase = c.phase)
    (more : List (UInt32 × Voice)) (hEncrypts : o.filterMap (Output.encrypts i) = [])
    (hRelays : o.filterMap (Output.relays i) = []) :
    Listening env.aead (history ++ o) (s.voice ++ more) i d :=
  (h.listens i c hTask).keep hSame (fun p hp => ⟨p, hPhase ▸ hp, rfl⟩) (fun _ hp => hPhase ▸ hp) more
    hEncrypts hRelays

theorem Relaying.listens_step (h : Relaying env accepted history s) (hEffect : Effect env s e s' o)
    (i : TaskId) (d : VoiceConnection) (hTask : s'.spawned[i]? = some d) :
    Listening env.aead (history ++ o) s'.voice i d := by
  have hKeep (hEncrypts : o.filterMap (Output.encrypts i) = [])
      (hRelays : o.filterMap (Output.relays i) = []) {c : VoiceConnection}
      (hTask : s.spawned[i]? = some c) (hSame : c.Same d) (hPhase : d.phase = c.phase) :
      Listening env.aead (history ++ o) s.voice i d := by
    simpa using h.listens_old hTask hSame hPhase [] hEncrypts hRelays
  have hSet (hEncrypts : o.filterMap (Output.encrypts i) = [])
      (hRelays : o.filterMap (Output.relays i) = []) {tx : TaskId} {c : VoiceConnection}
      {msgRx : List InternalMsg} {controlChan : List ControlRequest} (hOld : s.spawned[tx]? = some c)
      (hTask : (s.spawned.set tx { c with msgRx, controlChan })[i]? = some d) :
      Listening env.aead (history ++ o) s.voice i d := by
    rcases (getElem?_set_iff hOld).mp hTask with ⟨rfl, rfl⟩ | ⟨_, hTask⟩
    · exact hKeep hEncrypts hRelays hOld ⟨rfl, rfl, rfl⟩ rfl
    · exact hKeep hEncrypts hRelays hTask (.refl d) rfl
  cases hEffect with
  | task tx branch c outcome hOld hPoll =>
    rw [polled_voice]
    rw [polled_spawned, getElem?_set_iff hOld] at hTask
    rcases hTask with ⟨rfl, rfl⟩ | ⟨hNe, hTask⟩
    · exact (h.listens i c hOld).poll hPoll
    · obtain ⟨hEncrypts, hRelays⟩ := task_silent (Ne.symm hNe) outcome.output
      exact h.listens_old hTask (.refl d) rfl _ hEncrypts hRelays
  | turned e output result hLooping hSettled hQuiet =>
    obtain ⟨hEncrypts, hRelays⟩ := quiet_silent hQuiet result i
    exact hKeep hEncrypts hRelays hTask (.refl d) rfl
  | pushed e tx sender msg c hAccepts hOld => exact hSet rfl rfl hOld hTask
  | bound clientId addr draw srcId conn c hAwait hClient hConn hOld => exact hSet rfl rfl hOld hTask
  | asked e tx c req await hAsks hSettled hOld => exact hSet rfl rfl hOld hTask
  | opened clientId userName draw hAwait =>
    rw [turn_spawned] at hTask
    rcases opened_lookup hTask with hOld | ⟨rfl, rfl⟩
    · exact hKeep rfl rfl hOld (.refl d) rfl
    · obtain ⟨hEncrypts, hRelays⟩ := h.quiet _ (Nat.le_refl _)
      refine ⟨⟨0, [], by simp [fresh], fun _ _ => rfl, List.nil_sublist _, by simp, ?_⟩, ?_⟩
      · rw [List.filterMap_append, hEncrypts]
        rfl
      · rw [List.filterMap_append, hRelays]
        exact .nil
  | _ => exact hKeep rfl rfl hTask (.refl d) rfl

theorem Relaying.broadcast_step (h : Relaying env accepted history s) (hEffect : Effect env s e s' o) :
    ∀ item ∈ s'.voice, ∃ (tx : TaskId) (c : VoiceConnection), s'.spawned[tx]? = some c ∧
      c.sourceId = item.1 := by
  intro item hMem
  have hOld (hMem : item ∈ s.voice) : ∃ (tx : TaskId) (c : VoiceConnection),
      s'.spawned[tx]? = some c ∧ c.sourceId = item.1 := by
    obtain ⟨tx, c, hTask, hSource⟩ := h.broadcast item hMem
    obtain ⟨c', hTask', hSame⟩ := hEffect.tasks.same hTask
    exact ⟨tx, c', hTask', hSame.sourceId.trans hSource⟩
  cases hEffect with
  | task tx branch c outcome hTask hPoll =>
    rw [polled_voice] at hMem
    rcases List.mem_append.mp hMem with hMem | hNew
    · exact hOld hMem
    · rcases poll_speaks hPoll with ⟨hNone, _⟩ | ⟨_, voice, _, hVoice, _⟩
      · simp [hNone] at hNew
      · rw [hVoice, Option.toList_some, List.mem_singleton] at hNew
        refine ⟨tx, outcome.task, getElem?_set_here hTask, ?_⟩
        rw [hNew, hPoll.sourceId]
  | _ => exact hOld hMem

theorem Relaying.known_step (h : Relaying env accepted history s) (hWf : s.Wf)
    (hEffect : Effect env s e s' o) : ∀ entry ∈ accepted ++ (accepts env s e).toList,
      ∃ c : VoiceConnection, s'.spawned[entry.1]? = some c ∧ entry.2.sourceId = c.sourceId := by
  intro entry hMem
  have hBefore : ∃ c : VoiceConnection, s.spawned[entry.1]? = some c ∧ entry.2.sourceId = c.sourceId := by
    rcases List.mem_append.mp hMem with hOld | hNew
    · exact h.known entry hOld
    · rw [Option.mem_toList] at hNew
      obtain ⟨conn, hConn, hTx⟩ := accepts_bound hNew
      obtain ⟨c, hTask, hSource⟩ := (hWf.records _ conn hConn).task
      exact ⟨c, hTx ▸ hTask, hSource.symm⟩
  obtain ⟨c, hTask, hSource⟩ := hBefore
  obtain ⟨c', hTask', hSame⟩ := hEffect.tasks.same hTask
  exact ⟨c', hTask', hSource.trans hSame.sourceId.symm⟩

theorem Relaying.quiet_step (h : Relaying env accepted history s) (hEffect : Effect env s e s' o)
    (tx : TaskId) (hLe : s'.spawned.length ≤ tx) :
    (history ++ o).filterMap (Output.encrypts tx) = [] ∧
      (history ++ o).filterMap (Output.relays tx) = [] := by
  obtain ⟨hEncrypts, hRelays⟩ := h.quiet tx (Nat.le_trans hEffect.tasks.length_le hLe)
  have hSilent : o.filterMap (Output.encrypts tx) = [] ∧ o.filterMap (Output.relays tx) = [] := by
    have hBefore : s.spawned.length ≤ tx := Nat.le_trans hEffect.tasks.length_le hLe
    cases hEffect with
    | task tx' branch c outcome hTask =>
      have hLt : tx' < s.spawned.length := (List.getElem?_eq_some_iff.mp hTask).1
      exact task_silent (Nat.ne_of_lt (Nat.lt_of_lt_of_le hLt hBefore)) outcome.output
    | turned e output result hLooping hSettled hQuiet => exact quiet_silent hQuiet result tx
    | _ => exact ⟨rfl, rfl⟩
  simp only [List.filterMap_append, hEncrypts, hRelays, hSilent, List.append_nil, and_self]

theorem Relaying.step (h : Relaying env accepted history s) (hWf : s.Wf) (hDistinct : s'.Distinct)
    (hEffect : Effect env s e s' o) :
    Relaying env (accepted ++ (accepts env s e).toList) (history ++ o) s' where
  broadcast := h.broadcast_step hEffect
  known := h.known_step hWf hEffect
  speaks := h.speaks_step hDistinct hEffect
  listens := h.listens_step hEffect
  quiet := h.quiet_step hEffect

end Steps

theorem new_relaying (env : Env) (roomId : Uuid) (now : Instant) :
    Relaying env [] [] (new roomId now) where
  broadcast := by simp [new, turn]
  known := by simp
  speaks := by simp [new]
  listens := by simp [new]
  quiet := by simp

theorem relaying {roomId : Uuid} {now : Instant} {es : List Event} {tr : List Output}
    (hRun : Machine.run (VoiceChannel.step env) (new roomId now) es = some (s, tr))
    (hDistinct : s.Distinct) : Relaying env (accepted env (new roomId now) es) tr s := by
  refine (Machine.run_history (P := fun es s tr =>
    s.Wf ∧ (s.Distinct → Relaying env (accepted env (new roomId now) es) tr s))
    ⟨new_wf roomId now, fun _ => new_relaying env roomId now⟩ ?_ hRun).2 hDistinct
  rintro es s₁ tr e s₂ o hFirst ⟨hWf, hRelaying⟩ hStep
  have hEffect := step_effect hStep
  refine ⟨hWf.step hEffect, fun hDistinct => ?_⟩
  have hCollect : accepted env (new roomId now) (es ++ [e]) =
      accepted env (new roomId now) es ++ (accepts env s₁ e).toList :=
    Machine.collect_snoc hFirst e
  rw [hCollect]
  exact (hRelaying (hDistinct.before hEffect.tasks)).step hWf hDistinct hEffect

section Result

variable {accepted : List (TaskId × Voice)} {history : List Output}

theorem mem_acceptedFor {tx : TaskId} {voice : Voice} (h : voice ∈ acceptedFor tx accepted) :
    (tx, voice) ∈ accepted := by
  obtain ⟨⟨tx', voice'⟩, hFiltered, rfl⟩ := List.mem_map.mp h
  obtain ⟨hAccepted, hTx⟩ := List.mem_filter.mp hFiltered
  obtain rfl : tx' = tx := of_decide_eq_true hTx
  exact hAccepted

theorem Relaying.item_source (h : Relaying env accepted history s) {item : UInt32 × Voice}
    (hMem : item ∈ s.voice) : item.2.sourceId = item.1 := by
  obtain ⟨tx, c, hTask, hSource⟩ := h.broadcast item hMem
  obtain ⟨read, hHeard, hRead⟩ := h.speaks tx c hTask
  have hItem : item.2 ∈ s.heard c.sourceId :=
    List.mem_map_of_mem (List.mem_filter.mpr ⟨hMem, decide_eq_true hSource.symm⟩)
  obtain ⟨datagram, hDatagram, _, _, hEq⟩ := Subsequence.mem hHeard hItem
  have hAccepted := mem_acceptedFor (hRead.subset (List.mem_append_left _ hDatagram))
  obtain ⟨c', hTask', hSame⟩ := h.known _ hAccepted
  cases hTask.symm.trans hTask'
  rw [hEq, ← hSource]
  exact hSame

/-- What a listener encrypts of one speaker is a part of what the speaker broadcast. -/
theorem Relaying.encrypts_sublist (h : Relaying env accepted history s) {tx : TaskId}
    {c : VoiceConnection} (hTask : s.spawned[tx]? = some c) (srcId : UInt32) :
    ((history.filterMap (Output.encrypts tx)).filter fun voice => voice.sourceId = srcId).Sublist
      (s.heard srcId) := by
  obtain ⟨start, got, _, _, hLog, _, hHistory⟩ := (h.listens tx c hTask).seen
  have hFilter : got.filter (fun item => item.2.sourceId = srcId) =
      got.filter (fun item => item.1 = srcId) := by
    refine List.filter_congr fun item hMem => ?_
    rw [h.item_source (hLog.subset hMem)]
  rw [hHistory, List.filter_map]
  simp only [Function.comp_def, hFilter]
  exact (hLog.filter _).map Prod.snd

/-- Every message that a listener encrypts was broadcast by another task. -/
theorem Relaying.encrypts_other (h : Relaying env accepted history s) {tx : TaskId}
    {c : VoiceConnection} (hTask : s.spawned[tx]? = some c) {voice : Voice}
    (hMem : voice ∈ history.filterMap (Output.encrypts tx)) :
    voice.sourceId ≠ c.sourceId ∧ ∃ (k : TaskId) (d : VoiceConnection), s.spawned[k]? = some d ∧
      d.sourceId = voice.sourceId := by
  obtain ⟨start, got, _, _, hLog, hOther, hHistory⟩ := (h.listens tx c hTask).seen
  rw [hHistory] at hMem
  obtain ⟨item, hItem, rfl⟩ := List.mem_map.mp hMem
  rw [h.item_source (hLog.subset hItem)]
  exact ⟨hOther item hItem, h.broadcast item (hLog.subset hItem)⟩

end Result

/-- A message sent to a listener and the speaker's datagram that caused it. -/
structure Relays (aead : Aead Key Nonce) (speaker listener : Key) (sent datagram : Voice) : Prop where
  sourceId : sent.sourceId = datagram.sourceId
  sequence : sent.sequence = datagram.sequence
  streamTime : sent.streamTime = datagram.streamTime
  plain : ∃ plain, decryptVoice aead speaker datagram = some plain ∧
    decryptVoice aead listener sent = some plain

theorem relays_of_stages {aead : Aead Key Nonce} (hLawful : aead.Lawful) {speaker listener : Key}
    {sent heard datagram : Voice} (hEncrypted : Encrypted aead listener sent heard)
    (hDecrypted : Decrypted aead speaker heard datagram) :
    Relays aead speaker listener sent datagram := by
  obtain ⟨plain, hPlain, rfl⟩ := hDecrypted
  obtain ⟨payload, hPayload, rfl⟩ := hEncrypted
  exact ⟨rfl, rfl, rfl, plain, hPlain, decryptVoice_of_encryptVoice hLawful hPayload⟩

/-- In a run with distinct source ids, what is sent to a client is the voice of others; and for
each of them it is, in order, a subsequence of the datagrams accepted from its bound address,
with source id, sequence and stream time kept and the same plain text under the two keys. It goes
to the address that the client's task is peered with. -/
theorem voice_relay (env : Env) (roomId : Uuid) (now : Instant) (es : List Event) (s : VoiceChannel)
    (tr : List Output) (hLawful : env.aead.Lawful)
    (hRun : Machine.run (VoiceChannel.step env) (new roomId now) es = some (s, tr))
    (hDistinct : s.Distinct) (t : TaskId) (listener : VoiceConnection)
    (hListener : s.spawned[t]? = some listener) :
    (∀ sent ∈ tr.filterMap (Output.relays t), sent.sourceId ≠ listener.sourceId ∧
      ∃ (k : TaskId) (speaker : VoiceConnection), k ≠ t ∧ s.spawned[k]? = some speaker ∧
        speaker.sourceId = sent.sourceId) ∧
    (∀ (k : TaskId) (speaker : VoiceConnection), k ≠ t → s.spawned[k]? = some speaker →
      List.SublistForall₂ (Relays env.aead speaker.cryptKey listener.cryptKey)
        ((tr.filterMap (Output.relays t)).filter fun sent => sent.sourceId = speaker.sourceId)
        (acceptedFor k (accepted env (new roomId now) es))) ∧
    SentToPeer tr t listener := by
  have h := relaying hRun hDistinct
  have hSent := (h.listens t listener hListener).sent
  refine ⟨?_, ?_, sentToPeer_of_run hRun hListener⟩
  · intro sent hMem
    obtain ⟨voice, hVoice, _, _, rfl⟩ := Subsequence.mem hSent hMem
    obtain ⟨hOther, k, speaker, hSpeaker, hSource⟩ := h.encrypts_other hListener hVoice
    refine ⟨hOther, k, speaker, ?_, hSpeaker, hSource⟩
    rintro rfl
    cases hSpeaker.symm.trans hListener
    exact hOther hSource.symm
  · intro k speaker _ hSpeaker
    obtain ⟨read, hHeard, hRead⟩ := h.speaks k speaker hSpeaker
    have hKept : List.SublistForall₂ (Encrypted env.aead listener.cryptKey)
        ((tr.filterMap (Output.relays t)).filter fun sent => sent.sourceId = speaker.sourceId)
        (s.heard speaker.sourceId) := by
      refine Subsequence.sublist_right (Subsequence.filter ?_ hSent) (h.encrypts_sublist hListener _)
      rintro sent voice ⟨_, _, rfl⟩
      rfl
    have hFromRead := Subsequence.comp hKept hHeard
    have hAccepted := Subsequence.sublist_right hFromRead
      ((List.sublist_append_left read _).trans hRead)
    refine Subsequence.mono ?_ hAccepted
    rintro sent datagram ⟨voice, hEncrypted, hDecrypted⟩
    exact relays_of_stages hLawful hEncrypted hDecrypted

/-- One client speaks twice and another one hears it. -/
def overheard : List Event :=
  [.control (.openConnection 1 "a") ⟨10, [1]⟩, .control (.establish 1 ⟨.v4 1, 9⟩) ⟨0, []⟩,
    .task 0 .control, .resume,
    .control (.openConnection 2 "b") ⟨11, [2]⟩, .control (.establish 2 ⟨.v4 2, 9⟩) ⟨0, []⟩,
    .task 1 .control, .resume,
    .datagram ⟨.v4 1, 9⟩ (Env.spoken 10 1 5) true, .datagram ⟨.v4 1, 9⟩ (Env.spoken 10 1 6) true,
    .task 0 (.message true), .task 0 (.message true), .task 1 (.broadcast true),
    .task 1 (.broadcast true)]

theorem overheard_run : ∃ s tr, Machine.run (VoiceChannel.step .bare) (new 7 0) overheard = some (s, tr) ∧
    s.Distinct ∧ (∃ c, s.spawned[1]? = some c) ∧
    (tr.filterMap (Output.encryption 1)).map (fun use => (use.nonce, use.voice)) =
      [(voiceNonce 0 0, ⟨0, 0, 10, [5]⟩), (voiceNonce 0 0, ⟨0, 0, 10, [6]⟩)] := by
  have hLast : (Machine.run (VoiceChannel.step .bare) (new 7 0) overheard).map (fun last => decide
      ((last.1.spawned.map VoiceConnection.sourceId).Nodup ∧ last.1.spawned[1]?.isSome = true ∧
        (last.2.filterMap (Output.encryption 1)).map (fun use => (use.nonce, use.voice)) =
          [(voiceNonce 0 0, ⟨0, 0, 10, [5]⟩), (voiceNonce 0 0, ⟨0, 0, 10, [6]⟩)])) = some true := by
    decide
  obtain ⟨⟨s, tr⟩, hRun, hState⟩ := Option.map_eq_some_iff.mp hLast
  obtain ⟨hNodup, hTask, hEncrypts⟩ := of_decide_eq_true hState
  exact ⟨s, tr, hRun, distinct_of_nodup hNodup, Option.isSome_iff_exists.mp hTask, hEncrypts⟩

theorem voice_relay_overheard : ∃ s tr listener,
    Machine.run (VoiceChannel.step .bare) (new 7 0) overheard = some (s, tr) ∧
    s.spawned[1]? = some listener ∧
    (∀ sent ∈ tr.filterMap (Output.relays 1), sent.sourceId ≠ listener.sourceId ∧
      ∃ (k : TaskId) (speaker : VoiceConnection), k ≠ 1 ∧ s.spawned[k]? = some speaker ∧
        speaker.sourceId = sent.sourceId) ∧
    (∀ (k : TaskId) (speaker : VoiceConnection), k ≠ 1 → s.spawned[k]? = some speaker →
      List.SublistForall₂ (Relays tagged speaker.cryptKey listener.cryptKey)
        ((tr.filterMap (Output.relays 1)).filter fun sent => sent.sourceId = speaker.sourceId)
        (acceptedFor k (accepted .bare (new 7 0) overheard))) ∧
    SentToPeer tr 1 listener := by
  obtain ⟨s, tr, hRun, hDistinct, ⟨listener, hTask⟩, _⟩ := overheard_run
  exact ⟨s, tr, listener, hRun, hTask,
    voice_relay .bare 7 0 overheard s tr tagged_lawful hRun hDistinct 1 listener hTask⟩

end VoiceChannel

end Voices.VoiceServer
