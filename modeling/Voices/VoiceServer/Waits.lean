import Voices.VoiceServer.Addresses

/-!
# What the forwarder waits for

A task in its first loop does not read its datagrams, and the queue that the
forwarder pushes them into is bounded. The forwarder pushes only when an address
is bound, which makes sure of a task that reads: binding and the task's `Init`
belong to one handler, and the handler waits for the answer.
-/

namespace Voices.VoiceServer

open Semantics Std

namespace VoiceConnection

/-- The task has accepted an `Init` and is in `peered`, or has ended. -/
def Reads (c : VoiceConnection) : Prop := c.state = .peered ∨ c.state = .stopped

variable {env : Env} {c : VoiceConnection} {now : Instant} {log : List (UInt32 × Voice)}
  {outcome : Outcome}

theorem reads_of_stopped (hStopped : c.running = false) : c.Reads := by
  rw [running_eq_false_iff] at hStopped
  simp [Reads, state, hStopped]

theorem Reads.poll (hReads : c.Reads) (h : PollEffect env c now log outcome) :
    outcome.task.Reads := by
  cases h with
  | finished | stopped | unsent => exact reads_of_stopped rfl
  | accepted initTimeout addr rest hPhase => simp [Reads, state, startPeered]
  | answered => exact hReads
  | spoke | ponged | lagged | skipped | relayed => simp [Reads, state]

/-- A task that still waits has not moved unless an `Init` was in its queue. -/
theorem reads_of_init {addr : SocketAddr} (hQueue : c.controlChan = [.init addr])
    (h : PollEffect env c now log outcome) (hReply : outcome.reply ≠ none) : outcome.task.Reads := by
  cases h with
  | answered request rest hRunning hControl hStatus =>
    rw [hQueue] at hControl
    cases hControl
    obtain hInit | ⟨_, p, _, hPhase⟩ := hStatus
    · cases hInit
    · simp [Reads, state, hPhase]
  | accepted initTimeout addr rest hPhase => simp [Reads, state, startPeered]
  | finished | stopped | unsent => exact reads_of_stopped rfl
  | _ => exact absurd rfl hReply

/-- The first request in the queue of a running task is answered by its next step. -/
theorem poll_control_cons {request : ControlRequest} {rest : List ControlRequest}
    (hRunning : c.running = true) (hQueue : c.controlChan = request :: rest) (env : Env)
    (now : Instant) (senders : Bool) (log : List (UInt32 × Voice)) :
    ∃ outcome, c.poll env now senders log .control = some outcome ∧
      outcome.reply = some (c.replyTo request) := by
  cases hPhase : c.phase with
  | ended => exact absurd hPhase (running_iff.mp hRunning)
  | waiting | peered =>
    cases request <;>
      simp [poll, hPhase, run, peered, hQueue, replyTo, state]

theorem poll_message_cons {p : Peered} {msg : InternalMsg} {rest : List InternalMsg}
    (hPhase : c.phase = .peered p) (hQueue : c.msgRx = msg :: rest) (env : Env) (now : Instant)
    (senders : Bool) (log : List (UInt32 × Voice)) (sendOk : Bool) :
    ∃ outcome, c.poll env now senders log (.message sendOk) = some outcome ∧
      (outcome.task.running = false ∨ outcome.task.msgRx = rest) := by
  cases msg with
  | voice voice =>
    cases hDecrypt : decryptVoice env.aead c.cryptKey voice <;>
      simp [poll, hPhase, peered, hQueue, hDecrypt]
  | ping ping => cases sendOk <;> simp [poll, hPhase, peered, hQueue]

end VoiceConnection

def Await.accepts : Await → Reply → Bool
  | .control (.establish _ _) _, .init _ => true
  | .control (.leave _) _, .stop => true
  | .control (.status _) _, .status _ => true
  | .peers _ _ _ _, .status _ => true
  | _, _ => false

theorem Await.accepts_replyTo {await : Await} (h : await.answerable = true) (c : VoiceConnection) :
    await.accepts (c.replyTo await.request) = true := by
  cases await with
  | control ctl tx => cases ctl <;> first | rfl | cases h
  | peers => rfl
  | _ => cases h

theorem PollEffect.msgRx_le {env : Env} {c : VoiceConnection} {now : Instant}
    {log : List (UInt32 × Voice)} {outcome : Outcome} (h : PollEffect env c now log outcome) :
    outcome.task.msgRx.length ≤ c.msgRx.length := by
  cases h <;> simp_all [VoiceConnection.startPeered]

namespace VoiceChannel

/-- The forwarder is in the handler that has bound the address, and the task's answer to its
`Init` is outstanding. -/
def Establishing (s : VoiceChannel) (tx : TaskId) (addr : SocketAddr) : Prop :=
  s.oneshot = none ∧ ∃ clientId, s.await = .control (.establish clientId addr) tx

/-- No wait of the forwarder needs more than a step of the task that it waits for. -/
structure Unblocked (env : Env) (s : VoiceChannel) : Prop where
  bound : ∀ (k : UInt32) (conn : Conn) (addr : SocketAddr),
    s.forwarder.connections[k]? = some conn → conn.addr = some addr →
    ∃ c, s.spawned[conn.tx]? = some c ∧ (c.Reads ∨ s.Establishing conn.tx addr)
  pushed : ∀ e tx sender msg, Accepts env s e tx sender msg →
    ∃ c, s.spawned[tx]? = some c ∧ c.Reads
  asked : ∀ tx, s.await.on = some tx → s.resume.isSome = true ∨
    ∃ s' o, step env s (.task tx .control) = some (s', o) ∧ s'.resume.isSome = true
  held : ∀ tx sender msg sendOk, s.await = .forward tx sender msg → s.resume.isSome = true ∨
    ∃ s' o, step env s (.task tx (.message sendOk)) = some (s', o) ∧ s'.resume.isSome = true

structure Attended (s : VoiceChannel) : Prop where
  bound : ∀ (k : UInt32) (conn : Conn) (addr : SocketAddr) (c : VoiceConnection),
    s.forwarder.connections[k]? = some conn → conn.addr = some addr →
    s.spawned[conn.tx]? = some c → c.Reads ∨ s.Establishing conn.tx addr
  forward : ∀ tx sender msg, s.await = .forward tx sender msg →
    ∃ c, s.spawned[tx]? = some c ∧ c.Reads
  expects : ∀ tx, s.await.on = some tx →
    s.await.answerable = true ∧ ∀ reply ∈ s.oneshot, s.await.accepts reply = true
  room : ∀ (i : TaskId) (c : VoiceConnection), s.spawned[i]? = some c → c.msgRx.length ≤ msgCapacity

variable {env : Env} {s s' : VoiceChannel} {e : Event} {o : List Output} {tx : TaskId}

theorem Attended.reads_of_settled (h : s.Attended) (hSettled : s.Settled) {k : UInt32} {conn : Conn}
    {addr : SocketAddr} {c : VoiceConnection} (hConn : s.forwarder.connections[k]? = some conn)
    (hAddr : conn.addr = some addr) (hTask : s.spawned[conn.tx]? = some c) : c.Reads := by
  rcases h.bound k conn addr c hConn hAddr hTask with hReads | ⟨hOneshot, clientId, hAwait⟩
  · exact hReads
  · rcases hSettled conn.tx (by simp [hAwait, Await.on]) with hAnswer | hStopped
    · exact absurd hOneshot hAnswer
    · exact VoiceConnection.reads_of_stopped ((taskRunning_of hTask).symm.trans hStopped)

theorem Attended.pushed (h : s.Attended) (hWf : s.Wf) {sender : SocketAddr} {msg : InternalMsg}
    (hAccepts : Accepts env s e tx sender msg) : ∃ c, s.spawned[tx]? = some c ∧ c.Reads := by
  rcases hAccepts with ⟨_, _, _, _, _, hAwait, _, conn, addr, hConn, rfl, hAddr, _⟩ | ⟨_, _, _, hAwait⟩
  · obtain ⟨c, hTask, _⟩ := (hWf.records _ conn hConn).task
    exact ⟨c, hTask, h.reads_of_settled (settled_of_event hAwait) hConn hAddr hTask⟩
  · exact h.forward tx sender msg hAwait

theorem resume_of_accepted {reply : Reply} (hOn : s.await.on = some tx)
    (hOneshot : s.oneshot = some reply) (hAccepts : s.await.accepts reply = true) :
    s.resume.isSome = true := by
  cases hAwait : s.await with
  | control ctl tx' =>
    rw [hAwait] at hAccepts
    cases ctl <;> cases reply <;>
      first | exact absurd hAccepts Bool.false_ne_true | simp [resume, hAwait, resumeControl, hOneshot]
  | peers id conn rest peers =>
    rw [hAwait] at hAccepts
    cases reply with
    | status state => cases state <;> simp [resume, hAwait, resumePeers, hOneshot]
    | _ => cases hAccepts
  | _ => simp [hAwait, Await.on] at hOn

theorem resume_of_stopped (hOn : s.await.on = some tx) (hAnswerable : s.await.answerable = true)
    (hOneshot : s.oneshot = none) (hStopped : s.taskRunning tx = false) : s.resume.isSome = true := by
  cases hAwait : s.await with
  | control ctl tx' =>
    rw [hAwait] at hOn hAnswerable
    cases hOn
    cases ctl <;>
      first | exact absurd hAnswerable Bool.false_ne_true | simp [resume, hAwait, resumeControl, hOneshot, hStopped]
  | peers id conn rest peers =>
    rw [hAwait] at hOn
    cases hOn
    simp [resume, hAwait, resumePeers, hOneshot, hStopped]
  | _ => simp [hAwait, Await.on] at hOn

theorem Attended.asked (h : s.Attended) (hWf : s.Wf) (hOn : s.await.on = some tx) :
    s.resume.isSome = true ∨
      ∃ s' o, VoiceChannel.step env s (.task tx .control) = some (s', o) ∧ s'.resume.isSome = true := by
  obtain ⟨hAnswerable, hFits⟩ := h.expects tx hOn
  cases hOneshot : s.oneshot with
  | some reply => exact .inl (resume_of_accepted hOn hOneshot (hFits reply hOneshot))
  | none =>
    cases hRunning : s.taskRunning tx with
    | false => exact .inl (resume_of_stopped hOn hAnswerable hOneshot hRunning)
    | true =>
      obtain ⟨c, hTask, hRun⟩ := taskRunning_iff.mp hRunning
      have hQueue : c.controlChan = [s.await.request] := by
        rw [hWf.queues tx c hTask hRun, if_pos ⟨hOn, hOneshot⟩]
      obtain ⟨outcome, hPoll, hReply⟩ :=
        VoiceConnection.poll_control_cons hRun hQueue env s.now (s.senders tx) s.voice
      refine .inr ⟨s.polled tx outcome, outcome.output.map (.task tx), ?_, ?_⟩
      · simp only [VoiceChannel.step, pollTask, hTask, hPoll]
        rfl
      · exact resume_of_accepted (s := s.polled tx outcome) hOn (by simp [hReply])
          (Await.accepts_replyTo hAnswerable c)

theorem resume_of_room {sender : SocketAddr} {msg : InternalMsg} {c : VoiceConnection}
    (hAwait : s.await = .forward tx sender msg) (hTask : s.spawned[tx]? = some c)
    (hRoom : c.running = false ∨ c.msgRx.length < msgCapacity) : s.resume.isSome = true := by
  simp only [resume, hAwait, resumeForward, hTask]
  rcases hRoom with hStopped | hRoom
  · simp [hStopped]
  · simp [Nat.not_le.mpr hRoom]

theorem Attended.held (h : s.Attended) {sender : SocketAddr} {msg : InternalMsg} (sendOk : Bool)
    (hAwait : s.await = .forward tx sender msg) :
    s.resume.isSome = true ∨ ∃ s' o,
      VoiceChannel.step env s (.task tx (.message sendOk)) = some (s', o) ∧ s'.resume.isSome = true := by
  obtain ⟨c, hTask, hReads⟩ := h.forward tx sender msg hAwait
  rcases hReads with hPeered | hStopped
  · by_cases hRoom : c.msgRx.length < msgCapacity
    · exact .inl (resume_of_room hAwait hTask (.inr hRoom))
    · obtain ⟨p, hPhase⟩ := VoiceConnection.state_eq_peered_iff.mp hPeered
      cases hQueue : c.msgRx with
      | nil =>
        rw [hQueue] at hRoom
        exact absurd (by decide) hRoom
      | cons first rest =>
        obtain ⟨outcome, hPoll, hTaken⟩ :=
          VoiceConnection.poll_message_cons hPhase hQueue env s.now (s.senders tx) s.voice sendOk
        refine .inr ⟨s.polled tx outcome, outcome.output.map (.task tx), ?_, ?_⟩
        · simp only [VoiceChannel.step, pollTask, hTask, hPoll]
          rfl
        · refine resume_of_room (s := s.polled tx outcome) hAwait
            (getElem?_set_here hTask) (hTaken.imp_right fun hRest => ?_)
          have hFull := h.room tx c hTask
          rw [hQueue, List.length_cons] at hFull
          rw [hRest]
          exact hFull
  · refine .inl (resume_of_room hAwait hTask (.inl ?_))
    rw [VoiceConnection.running_eq_false_iff]
    cases hPhase : c.phase <;> simp [VoiceConnection.state, hPhase] at hStopped ⊢

theorem Attended.reads (h : s.Attended) (hWf : s.Wf) : s.Unblocked env where
  bound k conn addr hConn hAddr := by
    obtain ⟨c, hTask, _⟩ := (hWf.records k conn hConn).task
    exact ⟨c, hTask, h.bound k conn addr c hConn hAddr hTask⟩
  pushed _ _ _ _ := h.pushed hWf
  asked _ := h.asked hWf
  held _ _ _ sendOk := h.held sendOk

theorem reads_set {tx i : TaskId} {old new c : VoiceConnection} (hOld : s.spawned[tx]? = some old)
    (hTask : (s.spawned.set tx new)[i]? = some c) (hKeeps : old.Reads → new.Reads)
    (hReads : ∀ d, s.spawned[i]? = some d → d.Reads) : c.Reads := by
  rcases (getElem?_set_iff hOld).mp hTask with ⟨rfl, rfl⟩ | ⟨_, hTask⟩
  · exact hKeeps (hReads old hOld)
  · exact hReads c hTask

theorem Attended.bound_polled (h : s.Attended) (hWf : s.Wf) {c : VoiceConnection} {outcome : Outcome}
    (hOld : s.spawned[tx]? = some c) (hPoll : PollEffect env c s.now s.voice outcome) {k : UInt32}
    {conn : Conn} {addr : SocketAddr} {d : VoiceConnection}
    (hConn : s.forwarder.connections[k]? = some conn) (hAddr : conn.addr = some addr)
    (hTask : (s.polled tx outcome).spawned[conn.tx]? = some d) :
    d.Reads ∨ (s.polled tx outcome).Establishing conn.tx addr := by
  cases hReply : outcome.reply with
  | none =>
    rcases (getElem?_set_iff hOld).mp hTask with ⟨hTx, rfl⟩ | ⟨_, hTask⟩
    · rw [hTx]
      refine (h.bound k conn addr c hConn hAddr (hTx ▸ hOld)).imp (·.poll hPoll) fun hPending => ?_
      exact ⟨by simp [hReply, hPending.1], hTx ▸ hPending.2⟩
    · refine (h.bound k conn addr d hConn hAddr hTask).imp_right fun hPending => ?_
      exact ⟨by simp [hReply, hPending.1], hPending.2⟩
  | some reply =>
    -- the answer is to the request that was waited for
    obtain ⟨hRun, request, rest, hQueue, _⟩ := hPoll.reply hReply
    obtain ⟨hOn, _, hRequest, rfl⟩ := hWf.awaited hOld hRun hQueue
    left
    rcases (getElem?_set_iff hOld).mp hTask with ⟨hTx, rfl⟩ | ⟨hNe, hTask⟩
    · rcases h.bound k conn addr c hConn hAddr (hTx ▸ hOld) with hReads | ⟨_, clientId, hAwait⟩
      · exact hReads.poll hPoll
      · rw [hAwait, Await.request] at hRequest
        exact VoiceConnection.reads_of_init (hRequest ▸ hQueue) hPoll (by simp [hReply])
    · rcases h.bound k conn addr d hConn hAddr hTask with hReads | ⟨_, clientId, hAwait⟩
      · exact hReads
      · rw [hAwait, Await.on] at hOn
        exact absurd (Option.some.inj hOn) hNe

theorem Attended.bound_step (h : s.Attended) (hWf : s.Wf) (hEffect : Effect env s e s' o) {k : UInt32}
    {conn : Conn} {addr : SocketAddr} {c : VoiceConnection}
    (hConn : s'.forwarder.connections[k]? = some conn) (hAddr : conn.addr = some addr)
    (hTask : s'.spawned[conn.tx]? = some c) : c.Reads ∨ s'.Establishing conn.tx addr := by
  have hKept (hSettled : s.Settled) (hConn : s.forwarder.connections[k]? = some conn)
      (hTask : s.spawned[conn.tx]? = some c) : c.Reads ∨ s'.Establishing conn.tx addr :=
    .inl (h.reads_of_settled hSettled hConn hAddr hTask)
  cases hEffect with
  | ticked millis => exact h.bound k conn addr c hConn hAddr hTask
  | task tx branch old outcome hOld hPoll => exact h.bound_polled hWf hOld hPoll hConn hAddr hTask
  | turned e output result hLooping hSettled => exact hKept hSettled hConn hTask
  | pushed e tx sender msg old hAccepts hOld =>
    exact .inl (reads_set hOld hTask id fun d => h.reads_of_settled hAccepts.settled hConn hAddr)
  | held sender bytes sendOk tx msg old hAccepts => exact hKept hAccepts.settled hConn hTask
  | undone | missing | ended => simp [panic, dropped] at hConn
  | opened clientId userName draw hAwait =>
    rw [turn_spawned] at hTask
    rw [turn_forwarder, opened_connection] at hConn
    split at hConn
    · cases hConn
      cases hAddr
    · refine hKept (settled_of_event hAwait) hConn ((opened_lookup hTask).resolve_right ?_)
      rintro ⟨hNew, _⟩
      obtain ⟨old, hOld, _⟩ := (hWf.records k conn hConn).task
      exact absurd (List.getElem?_eq_some_iff.mp hOld).1 (hNew ▸ Nat.lt_irrefl _)
  | bound clientId newAddr draw srcId old task hAwait hClient hFound hOld hRunning =>
    have hCtl : old.ctl.tx = old.tx := (hWf.records srcId old hFound).ctl
    rw [hCtl] at hOld hTask
    rw [waiting_forwarder, asking_forwarder, bind_connection] at hConn
    split at hConn
    · cases hConn
      cases hAddr
      exact .inr ⟨rfl, clientId, by rw [waiting_await, hCtl]⟩
    · rename_i hNe
      rcases (getElem?_set_iff hOld).mp hTask with ⟨hEq, _⟩ | ⟨_, hTask⟩
      · exact absurd hEq.symm (hWf.tx_ne hFound hConn hNe)
      · exact hKept (settled_of_event hAwait) hConn hTask
  | unbound clientId newAddr draw srcId old hAwait hClient hFound hStopped =>
    have hCtl : old.ctl.tx = old.tx := (hWf.records srcId old hFound).ctl
    rw [turn_forwarder, bind_connection] at hConn
    split at hConn
    · cases hConn
      exact .inl (VoiceConnection.reads_of_stopped
        ((taskRunning_of hTask).symm.trans (hCtl ▸ hStopped)))
    · exact hKept (settled_of_event hAwait) hConn hTask
  | asked e tx old req await hAsks hSettled hOld =>
    exact .inl (reads_set hOld hTask id fun d => h.reads_of_settled hSettled hConn hAddr)
  | reaped index task hAwait =>
    exact hKept (settled_of_event hAwait) (reaped_connection hConn) hTask
  | closed hAwait => exact hKept (settled_of_event hAwait) hConn hTask
  | idled deadline hLooping hIdle =>
    have hStopped := hWf.stopped_of_idle (Effect.held_of_looping hLooping) hIdle conn.tx
    exact .inl (VoiceConnection.reads_of_stopped ((taskRunning_of hTask).symm.trans hStopped))

theorem Attended.forward_step (h : s.Attended) (hWf : s.Wf) (hEffect : Effect env s e s' o)
    {sender : SocketAddr} {msg : InternalMsg} (hAwait' : s'.await = .forward tx sender msg) :
    ∃ c, s'.spawned[tx]? = some c ∧ c.Reads := by
  cases hEffect with
  | ticked millis => exact h.forward tx sender msg hAwait'
  | task tx' branch old outcome hOld hPoll =>
    obtain ⟨c, hTask, hReads⟩ := h.forward tx sender msg hAwait'
    rcases eq_or_ne tx tx' with rfl | hNe
    · cases hOld.symm.trans hTask
      exact ⟨outcome.task, getElem?_set_here hOld, hReads.poll hPoll⟩
    · exact ⟨c, getElem?_set_there hOld hNe hTask, hReads⟩
  | held sender' bytes sendOk tx' msg' old hAccepts =>
    cases hAwait'
    exact h.pushed hWf hAccepts
  | asked e tx' old req await hAsks hSettled hOld hRunning hOn =>
    rw [waiting_await] at hAwait'
    cases hAwait' ▸ hOn
  | _ => cases hAwait'

theorem Attended.expects_step (h : s.Attended) (hWf : s.Wf) (hEffect : Effect env s e s' o)
    (hOn : s'.await.on = some tx) :
    s'.await.answerable = true ∧ ∀ reply ∈ s'.oneshot, s'.await.accepts reply = true := by
  cases hEffect with
  | ticked millis => exact h.expects tx hOn
  | task tx' branch old outcome hOld hPoll =>
    obtain ⟨hAnswerable, hFits⟩ := h.expects tx hOn
    refine ⟨hAnswerable, fun reply hReply => ?_⟩
    cases hOutcome : outcome.reply with
    | none =>
      rw [polled_oneshot, hOutcome] at hReply
      exact hFits reply hReply
    | some answer =>
      obtain ⟨hRun, request, rest, hQueue, rfl⟩ := hPoll.reply hOutcome
      obtain ⟨_, _, rfl, _⟩ := hWf.awaited hOld hRun hQueue
      rw [polled_oneshot, hOutcome] at hReply
      cases hReply
      exact Await.accepts_replyTo hAnswerable old
  | bound clientId addr draw srcId conn task => exact ⟨rfl, by simp⟩
  | asked e tx' old req await hAsks hSettled hOld hRunning hOn' hRequest hReq hAnswerable =>
    exact ⟨hAnswerable, by simp⟩
  | _ => cases hOn

theorem Attended.room_step (h : s.Attended) (hEffect : Effect env s e s' o) (i : TaskId)
    (c : VoiceConnection) (hTask : s'.spawned[i]? = some c) : c.msgRx.length ≤ msgCapacity := by
  have hSet {tx : TaskId} {old new : VoiceConnection} (hOld : s.spawned[tx]? = some old)
      (hTask : (s.spawned.set tx new)[i]? = some c) (hNew : new.msgRx.length ≤ msgCapacity) :
      c.msgRx.length ≤ msgCapacity := by
    rcases (getElem?_set_iff hOld).mp hTask with ⟨_, rfl⟩ | ⟨_, hTask⟩
    · exact hNew
    · exact h.room i c hTask
  cases hEffect with
  | task tx branch old outcome hOld hPoll =>
    exact hSet hOld hTask (hPoll.msgRx_le.trans (h.room tx old hOld))
  | pushed e tx sender msg old hAccepts hOld hRunning hRoom =>
    refine hSet hOld hTask ?_
    rw [List.length_append]
    exact hRoom
  | bound clientId addr draw srcId conn old hAwait hClient hConn hOld =>
    exact hSet hOld hTask (h.room _ old hOld)
  | asked e tx old req await hAsks hSettled hOld => exact hSet hOld hTask (h.room tx old hOld)
  | opened clientId userName draw hAwait =>
    rw [turn_spawned] at hTask
    rcases opened_lookup hTask with hOld | ⟨_, rfl⟩
    · exact h.room i c hOld
    · simp [fresh]
  | _ => exact h.room i c hTask

theorem Attended.step (h : s.Attended) (hWf : s.Wf) (hEffect : Effect env s e s' o) :
    s'.Attended where
  bound _ _ _ _ := h.bound_step hWf hEffect
  forward _ _ _ := h.forward_step hWf hEffect
  expects _ := h.expects_step hWf hEffect
  room := h.room_step hEffect

theorem new_attended (roomId : Uuid) (now : Instant) : (new roomId now).Attended := by
  constructor <;> simp [new, Await.on]

/-- In every reachable state an address is bound only for a task that reads, or that is about to
answer the `Init` of the handler under way; datagrams are pushed only to tasks that read; and every
wait of the forwarder ends by a step of the task it waits for. -/
theorem unblocked (env : Env) (roomId : Uuid) (now : Instant) (es : List Event) (s : VoiceChannel)
    (tr : List Output)
    (hRun : Machine.run (VoiceChannel.step env) (new roomId now) es = some (s, tr)) :
    s.Unblocked env := by
  have hAll : s.Wf ∧ s.Attended := by
    refine Machine.run_invariant (I := fun s => s.Wf ∧ s.Attended)
      ⟨new_wf roomId now, new_attended roomId now⟩ ?_ hRun
    rintro s₁ e s₂ o ⟨hWf, hAttended⟩ hStep
    exact ⟨hWf.step (step_effect hStep), hAttended.step hWf (step_effect hStep)⟩
  exact hAll.2.reads hAll.1

/-- The forwarder has bound an address and waits for the task. -/
def binding : List Event :=
  [.control (.openConnection 1 "a") ⟨10, []⟩, .control (.establish 1 ⟨.v4 1, 9⟩) ⟨0, []⟩]

theorem unblocked_binding : ∃ s tr,
    Machine.run (VoiceChannel.step .bare) (new 7 0) binding = some (s, tr) ∧ s.Unblocked .bare := by
  have hEnabled : (Machine.run (VoiceChannel.step .bare) (new 7 0) binding).isSome = true := by decide
  obtain ⟨⟨s, tr⟩, hRun⟩ := Option.isSome_iff_exists.mp hEnabled
  exact ⟨s, tr, hRun, unblocked .bare 7 0 binding s tr hRun⟩

/-- While the `Init` is under way the address is bound and the task waits in its first loop. -/
theorem not_bound_reads : ¬ ∀ (env : Env) (roomId : Uuid) (now : Instant) (es : List Event)
    (s : VoiceChannel) (tr : List Output),
    Machine.run (VoiceChannel.step env) (new roomId now) es = some (s, tr) →
    ∀ (k : UInt32) (conn : Conn) (c : VoiceConnection), s.forwarder.connections[k]? = some conn →
      conn.addr ≠ none → s.spawned[conn.tx]? = some c → c.Reads := by
  intro hAll
  have hLast : (Machine.run (VoiceChannel.step .bare) (new 7 0) binding).map (fun last =>
      (last.1.forwarder.connections[(10 : UInt32)]?.map fun conn => (conn.tx, conn.addr.isSome),
        last.1.spawned[0]?.map VoiceConnection.state)) =
      some (some (0, true), some .waiting) := by
    decide
  obtain ⟨⟨s, tr⟩, hRun, hState⟩ := Option.map_eq_some_iff.mp hLast
  obtain ⟨hRecord, hSpawned⟩ := Prod.mk.inj hState
  obtain ⟨conn, hConn, hFields⟩ := Option.map_eq_some_iff.mp hRecord
  obtain ⟨hTx, hAddr⟩ := Prod.mk.inj hFields
  obtain ⟨c, hTask, hWaiting⟩ := Option.map_eq_some_iff.mp hSpawned
  have hReads := hAll .bare 7 0 binding s tr hRun 10 conn c hConn
    (Option.isSome_iff_ne_none.mp hAddr) (hTx ▸ hTask)
  rw [VoiceConnection.Reads, hWaiting] at hReads
  revert hReads
  decide

end VoiceChannel

end Voices.VoiceServer
