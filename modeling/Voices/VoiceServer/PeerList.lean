import Voices.VoiceServer.Tables

/-!
# The answer to a `Peers` request

The handler zips the client ids of one table with the records of the other and
asks the task of each record for its state, while the tasks go on. `Gathered`
is what holds of the peers collected so far. The pairs that are zipped belong
together only by chance: `Aligned` is the condition on the two tables under
which every answer is right.
-/

namespace Voices.VoiceServer

open Semantics Std

def peerOf (pair : Uuid × Conn) : Peer :=
  { id := pair.1, sourceId := pair.2.ctl.sourceId, name := pair.2.ctl.userName }

namespace VoiceChannel

def taskState (s : VoiceChannel) (tx : TaskId) : ConnectionState :=
  match s.spawned[tx]? with
  | some c => c.state
  | none => .stopped

def IsPeered (s : VoiceChannel) (conn : Conn) : Prop := s.taskState conn.ctl.tx = .peered

/-- Every zipped pair with a peered record is one client's, and every client whose current
connection is peered is reached. -/
structure Aligned (s : VoiceChannel) : Prop where
  paired : ∀ pair ∈ s.zipped, s.IsPeered pair.2 →
    s.forwarder.clientIdToSrcId[pair.1]? = some pair.2.ctl.sourceId
  covered : ∀ (id : Uuid) (k : UInt32) (conn : Conn), s.forwarder.clientIdToSrcId[id]? = some k →
    s.forwarder.connections[k]? = some conn → s.IsPeered conn → ∃ id', (id', conn) ∈ s.zipped

def answer (peers : List Peer) : List Output :=
  [.answered .peers (.peers peers), .returned (.ok true)]

/-- The handler that a `Peers` request begins in `s` answers with the step to `s'`. -/
inductive PeersAnswered (env : Env) (s : VoiceChannel) (peers : List Peer) (s' : VoiceChannel) : Prop where
  | atOnce (draw : Draw) (hStep : step env s (.control .peers draw) = some (s', answer peers))
  | later (draw : Draw) (es : List Event) (tr : List Output) (s₁ : VoiceChannel) (e : Event)
      (hRun : Machine.run (step env) s (.control .peers draw :: es) = some (s₁, tr))
      (hGoesOn : tr.find? Output.outcome = none) (hStep : step env s₁ e = some (s', answer peers))

/-- Each peer belongs together and is peered, and each client whose current connection is still
peered at the end has its one peer in the answer. -/
structure PeersCorrect (history : List Output) (s s' : VoiceChannel) (peers : List Peer) : Prop where
  nodup : (peers.map Peer.id).Nodup
  sound : ∀ p ∈ peers, s.forwarder.clientIdToSrcId[p.id]? = some p.sourceId ∧
    (∃ conn, s.forwarder.connections[p.sourceId]? = some conn ∧ s.IsPeered conn) ∧
    .answered (.openConnection p.id p.name) (.opened p.sourceId) ∈ history
  complete : ∀ (id : Uuid) (k : UInt32) (conn : Conn), s.forwarder.clientIdToSrcId[id]? = some k →
    s.forwarder.connections[k]? = some conn → s'.IsPeered conn → ∃ p ∈ peers, p.id = id

structure Gathered (s s₁ : VoiceChannel) (done : List (Uuid × Conn)) (peers : List Peer) : Prop where
  tables : s₁.forwarder = s.forwarder
  peered : ∀ conn, s₁.IsPeered conn → s.IsPeered conn
  sublist : peers.Sublist (done.map peerOf)
  sound : ∀ p ∈ peers, ∃ pair ∈ done, p = peerOf pair ∧ s.IsPeered pair.2
  complete : ∀ pair ∈ done, s₁.IsPeered pair.2 → peerOf pair ∈ peers

variable {env : Env} {s s' s₁ s₂ : VoiceChannel} {e : Event} {o : List Output}

theorem taskState_of {tx : TaskId} {c : VoiceConnection} (hTask : s.spawned[tx]? = some c) :
    s.taskState tx = c.state := by
  simp [taskState, hTask]

theorem taskState_eq_peered_iff {tx : TaskId} :
    s.taskState tx = .peered ↔ ∃ c, s.spawned[tx]? = some c ∧ c.state = .peered := by
  unfold taskState
  cases s.spawned[tx]? <;> simp

theorem running_of_peered {conn : Conn} (h : s.IsPeered conn) : s.taskRunning conn.ctl.tx = true := by
  obtain ⟨c, hTask, hState⟩ := taskState_eq_peered_iff.mp h
  obtain ⟨p, hPhase⟩ := VoiceConnection.state_eq_peered_iff.mp hState
  exact taskRunning_iff.mpr ⟨c, hTask, by simp [VoiceConnection.running_iff, hPhase]⟩

theorem Gathered.start (s : VoiceChannel) : Gathered s s [] [] :=
  ⟨rfl, fun _ => id, List.nil_sublist _, by simp, by simp⟩

theorem Gathered.mono {done : List (Uuid × Conn)} {peers : List Peer} (h : Gathered s s₁ done peers)
    (hTables : s₂.forwarder = s₁.forwarder) (hPeered : ∀ conn, s₂.IsPeered conn → s₁.IsPeered conn) :
    Gathered s s₂ done peers where
  tables := hTables.trans h.tables
  peered := fun conn hConn => h.peered conn (hPeered conn hConn)
  sublist := h.sublist
  sound := h.sound
  complete := fun pair hMem hConn => h.complete pair hMem (hPeered pair.2 hConn)

theorem Gathered.skip {done : List (Uuid × Conn)} {peers : List Peer} {pair : Uuid × Conn}
    (h : Gathered s s₁ done peers) (hNot : ¬ s₁.IsPeered pair.2) :
    Gathered s s₁ (done ++ [pair]) peers where
  tables := h.tables
  peered := h.peered
  sublist := by
    rw [List.map_append]
    exact h.sublist.trans (List.sublist_append_left _ _)
  sound := by
    intro p hp
    obtain ⟨pair, hMem, hEq⟩ := h.sound p hp
    exact ⟨pair, List.mem_append_left _ hMem, hEq⟩
  complete := by
    intro pair' hMem hConn
    rcases List.mem_append.mp hMem with hDone | hLast
    · exact h.complete pair' hDone hConn
    · rw [List.mem_singleton] at hLast
      exact absurd (hLast ▸ hConn) hNot

theorem Gathered.take {done : List (Uuid × Conn)} {peers : List Peer} {pair : Uuid × Conn}
    (h : Gathered s s₁ done peers) (hPeered : s.IsPeered pair.2) :
    Gathered s s₁ (done ++ [pair]) (peers ++ [peerOf pair]) where
  tables := h.tables
  peered := h.peered
  sublist := by
    rw [List.map_append]
    exact h.sublist.append (List.Sublist.refl _)
  sound := by
    intro p hp
    rcases List.mem_append.mp hp with hOld | hNew
    · obtain ⟨pair, hMem, hEq⟩ := h.sound p hOld
      exact ⟨pair, List.mem_append_left _ hMem, hEq⟩
    · exact ⟨pair, List.mem_append_right _ (List.mem_singleton_self _), List.mem_singleton.mp hNew, hPeered⟩
  complete := by
    intro pair' hMem hConn
    rcases List.mem_append.mp hMem with hDone | hLast
    · exact List.mem_append_left _ (h.complete pair' hDone hConn)
    · rw [List.mem_singleton.mp hLast]
      exact List.mem_append_right _ (List.mem_singleton_self _)

theorem isPeered_before {tx : TaskId} {old new : VoiceConnection} (hOld : s₁.spawned[tx]? = some old)
    (hTasks : s₂.spawned = s₁.spawned.set tx new) (hState : new.state = .peered → old.state = .peered)
    (conn : Conn) (hConn : s₂.IsPeered conn) : s₁.IsPeered conn := by
  obtain ⟨c, hTask, hPeered⟩ := taskState_eq_peered_iff.mp hConn
  rw [hTasks, getElem?_set_iff hOld] at hTask
  rcases hTask with ⟨hEq, rfl⟩ | ⟨_, hTask⟩
  · exact taskState_eq_peered_iff.mpr ⟨old, hEq ▸ hOld, hState hPeered⟩
  · exact taskState_eq_peered_iff.mpr ⟨c, hTask, hPeered⟩

/-- The handler waits for the state of one task; what it may read from its oneshot is true. -/
structure Gathering (s s₁ : VoiceChannel) : Prop where
  idle : s₁.idle = none
  gathered : ∃ id conn rest peers done, s₁.await = .peers id conn rest peers ∧
    s.zipped = done ++ (id, conn) :: rest ∧ Gathered s s₁ done peers ∧
    ∀ reply, s₁.oneshot = some reply → ∃ state, reply = .status state ∧
      (state = .peered → s.IsPeered conn) ∧ (state ≠ .peered → ¬ s₁.IsPeered conn)

theorem Gathered.pollPeers {rest : List (Uuid × Conn)} {peers : List Peer}
    {done : List (Uuid × Conn)} (h : Gathered s s₁ done peers) (hZipped : s.zipped = done ++ rest)
    (hIdle : ∀ tx, s₁.taskRunning tx = true → s₁.idle = none) :
    (∃ s₂, s₁.pollPeers rest peers =
        (s₂, answer peers) ∧
      Gathered s s₂ s.zipped peers) ∨
    (∃ s₂, s₁.pollPeers rest peers = (s₂, []) ∧ Gathering s s₂) := by
  induction rest generalizing done with
  | nil =>
    left
    refine ⟨s₁.turn, rfl, ?_⟩
    rw [hZipped, List.append_nil]
    exact h.mono rfl fun conn hConn => hConn
  | cons pair rest ih =>
    obtain ⟨id, conn⟩ := pair
    unfold VoiceChannel.pollPeers
    cases hAsked : s₁.request conn.ctl.tx .status with
    | none =>
      have hStopped : s₁.taskRunning conn.ctl.tx = false := request_eq_none_iff.mp hAsked
      refine ih (h.skip fun (hPeered : s₁.IsPeered (id, conn).2) => ?_) (by simp [hZipped])
      simp [running_of_peered hPeered] at hStopped
    | some asked =>
      obtain ⟨c, hTask, hRunning, rfl⟩ := request_eq_some_iff.mp hAsked
      right
      refine ⟨_, rfl, hIdle conn.ctl.tx (taskRunning_iff.mpr ⟨c, hTask, hRunning⟩),
        id, conn, rest, peers, done, rfl, hZipped, ?_, by simp⟩
      exact h.mono rfl (isPeered_before hTask rfl fun hState => hState)

/-- While a handler waits for states no task becomes peered. -/
theorem Wf.state_before (hWf : s.Wf) {tx : TaskId} {c : VoiceConnection} {outcome : Outcome}
    (hTask : s.spawned[tx]? = some c) (hPoll : PollEffect env c s.now s.voice outcome)
    (hRequest : s.await.request = .status) (hPeered : outcome.task.state = .peered) :
    c.state = .peered := by
  cases hPoll with
  | accepted initTimeout addr rest hPhase hControl =>
    have hRunning : c.running = true := by simp [VoiceConnection.running_iff, hPhase]
    obtain ⟨_, _, hInit, _⟩ := hWf.awaited hTask hRunning hControl
    cases hInit.trans hRequest
  | finished | stopped | unsent => cases hPeered
  | answered request rest hRunning hControl => exact hPeered
  | spoke p voice rest payload hPhase => simp [VoiceConnection.state, hPhase]
  | ponged p ping rest hPhase => simp [VoiceConnection.state, hPhase]
  | lagged p next hPhase => simp [VoiceConnection.state, hPhase]
  | skipped p voice next hPhase => simp [VoiceConnection.state, hPhase]
  | relayed p rxPktId voice next use hPhase => simp [VoiceConnection.state, hPhase]

theorem Gathering.task (hWf : s₁.Wf) (h : Gathering s s₁) {tx : TaskId} {c : VoiceConnection}
    {outcome : Outcome} (hTask : s₁.spawned[tx]? = some c)
    (hPoll : PollEffect env c s₁.now s₁.voice outcome) : Gathering s (s₁.polled tx outcome) := by
  obtain ⟨hIdle, id, conn, rest, peers, done, hAwait, hZipped, hGathered, hReply⟩ := h
  have hState := hWf.state_before hTask hPoll (by rw [hAwait]; rfl)
  have hBefore : ∀ conn, (s₁.polled tx outcome).IsPeered conn → s₁.IsPeered conn :=
    isPeered_before hTask rfl hState
  refine ⟨hIdle, id, conn, rest, peers, done, hAwait, hZipped, hGathered.mono rfl hBefore, ?_⟩
  intro reply hOneshot
  rw [polled_oneshot] at hOneshot
  cases hNew : outcome.reply with
  | none =>
    rw [hNew] at hOneshot
    obtain ⟨state, hStatus, hPeered, hOther⟩ := hReply reply hOneshot
    exact ⟨state, hStatus, hPeered, fun hNe hConn => hOther hNe (hBefore conn hConn)⟩
  | some answer =>
    rw [hNew] at hOneshot
    cases hOneshot
    obtain ⟨hRunning, request, rest', hControl, rfl⟩ := hPoll.reply hNew
    obtain ⟨hOn, _, hRequest, _⟩ := hWf.awaited hTask hRunning hControl
    rw [hAwait] at hOn hRequest
    cases hOn
    subst hRequest
    have hEq : s₁.taskState conn.ctl.tx = c.state := taskState_of hTask
    exact ⟨c.state, rfl, fun hPeered => hGathered.peered conn (hEq.trans hPeered),
      fun hNe hConn => hNe (hEq.symm.trans (hBefore conn hConn))⟩

theorem Gathering.resume (h : Gathering s s₁)
    (hStep : VoiceChannel.step env s₁ .resume = some (s₂, o)) :
    (o.find? Output.outcome = none ∧ Gathering s s₂) ∨
      ∃ peers, o = answer peers ∧
        Gathered s s₂ s.zipped peers := by
  obtain ⟨hIdle, id, conn, rest, peers, done, hAwait, hZipped, hGathered, hReply⟩ := h
  have hZipped' : s.zipped = (done ++ [(id, conn)]) ++ rest := by simp [hZipped]
  have hNext (peers' : List Peer) (hGathered : Gathered s s₁ (done ++ [(id, conn)]) peers')
      (hEq : s₁.pollPeers rest peers' = (s₂, o)) :
      (o.find? Output.outcome = none ∧ Gathering s s₂) ∨
        ∃ peers, o = answer peers ∧
          Gathered s s₂ s.zipped peers := by
    rcases hGathered.pollPeers hZipped' (fun _ _ => hIdle) with ⟨s₃, hAnswer, hAll⟩ | ⟨s₃, hAsk, hWaits⟩
    · cases hAnswer.symm.trans hEq
      exact .inr ⟨peers', rfl, hAll⟩
    · cases hAsk.symm.trans hEq
      exact .inl ⟨rfl, hWaits⟩
  simp only [VoiceChannel.step, VoiceChannel.resume, hAwait, resumePeers] at hStep
  split at hStep
  · rename_i hOneshot
    obtain ⟨_, hStatus, hPeered, _⟩ := hReply _ hOneshot
    cases hStatus
    exact hNext _ (hGathered.take (hPeered rfl)) (Option.some.inj hStep)
  · rename_i reply hOther hOneshot
    obtain ⟨state, rfl, _, hNot⟩ := hReply reply hOneshot
    exact hNext _ (hGathered.skip (hNot fun hPeered => hOther (by rw [hPeered]))) (Option.some.inj hStep)
  · split at hStep
    · cases hStep
    · rename_i hStopped
      exact hNext _ (hGathered.skip fun hPeered => hStopped (running_of_peered hPeered))
        (Option.some.inj hStep)

/-- One step while the handler is going on: it still is, or it answers. -/
theorem Gathering.step (hWf : s₁.Wf) (h : Gathering s s₁)
    (hStep : VoiceChannel.step env s₁ e = some (s₂, o)) :
    (o.find? Output.outcome = none ∧ Gathering s s₂) ∨
      ∃ peers, o = answer peers ∧
        Gathered s s₂ s.zipped peers := by
  have hSelect (handled : VoiceChannel × List Output) : s₁.select handled = none := by
    obtain ⟨_, id, conn, rest, peers, done, hAwait, _⟩ := h
    simp [select, hAwait]
  cases e with
  | tick millis =>
    cases hStep
    obtain ⟨hIdle, id, conn, rest, peers, done, hAwait, hZipped, hGathered, hReply⟩ := h
    exact .inl ⟨rfl, hIdle, id, conn, rest, peers, done, hAwait, hZipped,
      hGathered.mono rfl fun _ hConn => hConn, hReply⟩
  | task tx branch =>
    obtain ⟨c, outcome, hTask, hPoll, rfl, rfl⟩ := task_step hStep
    exact .inl ⟨Output.find_outcome_task _ _, h.task hWf hTask hPoll⟩
  | resume => exact h.resume hStep
  | idleTimeout => simp [VoiceChannel.step, h.idle] at hStep
  | notified =>
    obtain ⟨_, id, conn, rest, peers, done, hAwait, _⟩ := h
    simp [VoiceChannel.step, hAwait] at hStep
  | reap index =>
    obtain ⟨_, hEvent, _⟩ := reap_step hStep
    obtain ⟨_, id, conn, rest, peers, done, hAwait, _⟩ := h
    cases hAwait.symm.trans hEvent
  | datagram | recvFailed | control | controlClosed => simp [VoiceChannel.step, hSelect] at hStep

theorem Gathering.start (hWf : s.Wf) {draw : Draw}
    (hStep : VoiceChannel.step env s (.control .peers draw) = some (s₁, o)) :
    (o.find? Output.outcome = none ∧ Gathering s s₁) ∨
      ∃ peers, o = answer peers ∧ Gathered s s₁ s.zipped peers := by
  obtain ⟨hAwait, hEq⟩ := select_eq_some_iff.mp hStep
  have hHeld : s.held = true := by simp [VoiceChannel.held, hAwait]
  have hIdle (tx : TaskId) (hRunning : s.taskRunning tx = true) : s.idle = none := by
    cases hIdle : s.idle with
    | none => rfl
    | some deadline => simp [hWf.stopped_of_idle hHeld hIdle tx] at hRunning
  rcases (Gathered.start s).pollPeers (List.nil_append _).symm hIdle with
    ⟨s₂, hAnswer, hAll⟩ | ⟨s₂, hAsk, hWaits⟩
  · cases hEq.trans hAnswer
    exact .inr ⟨[], rfl, hAll⟩
  · cases hEq.trans hAsk
    exact .inl ⟨rfl, hWaits⟩

theorem Gathering.run (hWf : s₁.Wf) (h : Gathering s s₁) {es : List Event} {tr : List Output}
    (hRun : Machine.run (VoiceChannel.step env) s₁ es = some (s₂, tr))
    (hGoesOn : tr.find? Output.outcome = none) : s₂.Wf ∧ Gathering s s₂ := by
  refine Machine.run_induction (P := fun s₂ tr => tr.find? Output.outcome = none →
    s₂.Wf ∧ Gathering s s₂) (fun _ => ⟨hWf, h⟩) ?_ hRun hGoesOn
  intro s₂ tr e s₃ o ih hStep hNone
  rw [List.find?_append, Option.or_eq_none_iff] at hNone
  obtain ⟨hWf, hGathering⟩ := ih hNone.1
  refine ⟨hWf.step (step_effect hStep), ?_⟩
  rcases hGathering.step hWf hStep with ⟨_, hNext⟩ | ⟨peers, rfl, _⟩
  · exact hNext
  · exact absurd hNone.2 (by simp [answer, Output.outcome])

theorem PeersAnswered.gathered (hWf : s.Wf) {peers : List Peer} (h : PeersAnswered env s peers s') :
    Gathered s s' s.zipped peers := by
  have hAnswer {s₁ : VoiceChannel} {o : List Output} (hEq : o = answer peers)
      (hEnd : (o.find? Output.outcome = none ∧ Gathering s s₁) ∨
        ∃ peers, o = answer peers ∧ Gathered s s₁ s.zipped peers) : Gathered s s₁ s.zipped peers := by
    rcases hEnd with ⟨hNone, _⟩ | ⟨peers', hSame, hGathered⟩
    · exact absurd hNone (by simp [hEq, answer, Output.outcome])
    · cases hEq.symm.trans hSame
      exact hGathered
  cases h with
  | atOnce draw hStep => exact hAnswer rfl (Gathering.start hWf hStep)
  | later draw es tr s₁ e hRun hGoesOn hStep =>
    obtain ⟨s₂, o, tr₁, hFirst, hRest, rfl⟩ := Machine.run_cons_iff.mp hRun
    rw [List.find?_append, Option.or_eq_none_iff] at hGoesOn
    have hWf₂ : s₂.Wf := hWf.step (step_effect hFirst)
    rcases Gathering.start hWf hFirst with ⟨_, hBegun⟩ | ⟨peers', rfl, _⟩
    · obtain ⟨hWf₁, hGathering⟩ := hBegun.run hWf₂ hRest hGoesOn.2
      exact hAnswer rfl (hGathering.step hWf₁ hStep)
    · exact absurd hGoesOn.1 (by simp [answer, Output.outcome])

def Named (history : List Output) (s : VoiceChannel) : Prop :=
  ∀ (k : UInt32) (conn : Conn), s.forwarder.connections[k]? = some conn →
    ∃ c : VoiceConnection, s.spawned[conn.tx]? = some c ∧
      .answered (.openConnection c.clientId conn.ctl.userName) (.opened k) ∈ history

theorem Named.step {history : List Output} (hNamed : Named history s) (h : Effect env s e s' o) :
    Named (history ++ o) s' := by
  intro k conn hConn
  have hOld (old : Conn) (hTx : old.tx = conn.tx) (hName : old.ctl.userName = conn.ctl.userName)
      (hOld : s.forwarder.connections[k]? = some old) : ∃ c : VoiceConnection,
      s'.spawned[conn.tx]? = some c ∧
        .answered (.openConnection c.clientId conn.ctl.userName) (.opened k) ∈ history ++ o := by
    obtain ⟨c, hTask, hMem⟩ := hNamed k old hOld
    obtain ⟨c', hTask', hSame⟩ := h.tasks.same hTask
    rw [hTx] at hTask'
    rw [hName, ← hSame.clientId] at hMem
    exact ⟨c', hTask', List.mem_append_left _ hMem⟩
  cases h with
  | opened clientId userName draw hAwait =>
    rw [turn_forwarder, opened_connection] at hConn
    split at hConn
    · rename_i hKey
      subst hKey
      cases hConn
      exact ⟨_, opened_task (by rw [turn_spawned]), by simp [fresh, Conn.new]⟩
    · exact hOld conn rfl rfl hConn
  | bound clientId addr draw srcId found c hAwait hClient hFound =>
    rw [waiting_forwarder, asking_forwarder, bind_connection] at hConn
    split at hConn
    · rename_i hKey
      subst hKey
      cases hConn
      exact hOld found rfl rfl hFound
    · exact hOld conn rfl rfl hConn
  | unbound clientId addr draw srcId found hAwait hClient hFound =>
    rw [turn_forwarder, bind_connection] at hConn
    split at hConn
    · rename_i hKey
      subst hKey
      cases hConn
      exact hOld found rfl rfl hFound
    · exact hOld conn rfl rfl hConn
  | reaped index task hAwait => exact hOld conn rfl rfl (reaped_connection hConn)
  | undone | missing | ended => simp [panic, dropped] at hConn
  | _ => exact hOld conn rfl rfl hConn

theorem named {roomId : Uuid} {now : Instant} {es : List Event} {tr : List Output}
    (hRun : Machine.run (VoiceChannel.step env) (new roomId now) es = some (s, tr)) : Named tr s :=
  Machine.run_induction (P := fun s tr => Named tr s) (by simp [Named, new])
    (fun _ _ _ _ _ hNamed hStep => hNamed.step (step_effect hStep)) hRun

theorem mem_zipped {pair : Uuid × Conn} (hMem : pair ∈ s.zipped) :
    ∃ k : UInt32, s.forwarder.connections[k]? = some pair.2 := by
  have hConn : pair.2 ∈ s.forwarder.connections.toList.map Prod.snd := (List.of_mem_zip hMem).2
  obtain ⟨entry, hEntry, hEq⟩ := List.mem_map.mp hConn
  refine ⟨entry.1, ?_⟩
  rw [← hEq]
  exact TreeMap.mem_toList_iff_getElem?_eq_some.mp hEntry

theorem zipped_nodup (s : VoiceChannel) : (s.zipped.map Prod.fst).Nodup := by
  unfold zipped
  rw [List.zip_eq_zip_take_min, List.map_fst_zip (by simp)]
  exact TreeMap.nodup_keys.sublist (List.take_sublist _ _)

theorem Owned.unique (hOwned : s.Owned) {id id' : Uuid} {k : UInt32}
    (hClient : s.forwarder.clientIdToSrcId[id]? = some k)
    (hClient' : s.forwarder.clientIdToSrcId[id']? = some k) : id = id' := by
  obtain ⟨conn, c, hConn, hTask, rfl⟩ := hOwned id k hClient
  obtain ⟨conn', c', hConn', hTask', rfl⟩ := hOwned id' k hClient'
  cases hConn.symm.trans hConn'
  cases hTask.symm.trans hTask'
  rfl

theorem Aligned.correct (hAligned : s.Aligned) (hWf : s.Wf) (hOwned : s.Owned) {history : List Output}
    (hNamed : Named history s) {peers : List Peer} (h : Gathered s s' s.zipped peers) :
    PeersCorrect history s s' peers where
  nodup := by
    have hIds := (h.sublist.map Peer.id)
    rw [List.map_map] at hIds
    exact (zipped_nodup s).sublist hIds
  sound := by
    intro p hp
    obtain ⟨pair, hMem, rfl, hPeered⟩ := h.sound p hp
    have hClient := hAligned.paired pair hMem hPeered
    obtain ⟨k, hConn⟩ := mem_zipped hMem
    have hKey : pair.2.ctl.sourceId = k := (hWf.records k pair.2 hConn).key
    subst hKey
    obtain ⟨conn, c, hConn', hTask, hId⟩ := hOwned pair.1 _ hClient
    cases hConn.symm.trans hConn'
    obtain ⟨c', hTask', hHistory⟩ := hNamed _ pair.2 hConn
    cases hTask.symm.trans hTask'
    rw [hId] at hHistory
    exact ⟨hClient, ⟨pair.2, hConn, hPeered⟩, hHistory⟩
  complete := by
    intro id k conn hClient hConn hPeered
    obtain ⟨id', hMem⟩ := hAligned.covered id k conn hClient hConn (h.peered conn hPeered)
    refine ⟨peerOf (id', conn), h.complete (id', conn) hMem hPeered, ?_⟩
    have hClient' := hAligned.paired (id', conn) hMem (h.peered conn hPeered)
    rw [(hWf.records k conn hConn).key] at hClient'
    exact hOwned.unique hClient' hClient

def Drained (s : VoiceChannel) : Prop :=
  ∀ (i : TaskId) (c : VoiceConnection), s.spawned[i]? = some c → c.running = true → c.controlChan = []

def peersOf (s : VoiceChannel) (pairs : List (Uuid × Conn)) : List Peer :=
  (pairs.filter fun pair => s.taskState pair.2.ctl.tx = .peered).map peerOf

theorem poll_status (env : Env) {c : VoiceConnection} {rest : List ControlRequest}
    (hRunning : c.running = true) (now : Instant) (senders : Bool) (log : List (UInt32 × Voice)) :
    { c with controlChan := .status :: rest }.poll env now senders log .control =
      some { task := { c with controlChan := rest }, reply := some (.status c.state) } := by
  cases hPhase : c.phase with
  | waiting initTimeout => simp [VoiceConnection.poll, VoiceConnection.run, VoiceConnection.state, hPhase]
  | peered p => simp [VoiceConnection.poll, VoiceConnection.peered, VoiceConnection.state, hPhase]
  | ended => exact absurd hPhase (VoiceConnection.running_iff.mp hRunning)

/-- From the result of one step on, the handler can answer. -/
inductive Answers (env : Env) (peers : List Peer) (s' : VoiceChannel) :
    VoiceChannel × List Output → Prop where
  | now : Answers env peers s' (s', answer peers)
  | later (s₁ s₂ : VoiceChannel) (es : List Event) (tr : List Output) (e : Event)
      (hRun : Machine.run (step env) s₁ es = some (s₂, tr)) (hGoesOn : tr.find? Output.outcome = none)
      (hStep : step env s₂ e = some (s', answer peers)) : Answers env peers s' (s₁, [])

theorem Answers.after {peers : List Peer} {e₁ e₂ : Event} {r : VoiceChannel × List Output}
    (h : Answers env peers s' r) (hFirst : VoiceChannel.step env s e₁ = some (s₁, []))
    (hSecond : VoiceChannel.step env s₁ e₂ = some r) : Answers env peers s' (s, []) := by
  cases h with
  | now => exact .later s s₁ [e₁] [] e₂ (Machine.run_singleton_iff.mpr hFirst) rfl hSecond
  | later s₂ s₃ es tr e hRun hGoesOn hStep =>
    refine .later s s₃ (e₁ :: e₂ :: es) tr e ?_ hGoesOn hStep
    exact Machine.run_cons_iff.mpr ⟨s₁, [], tr, hFirst,
      Machine.run_cons_iff.mpr ⟨s₂, [], tr, hSecond, hRun, rfl⟩, rfl⟩

theorem peersOf_congr (hTasks : s₁.spawned = s.spawned) (pairs : List (Uuid × Conn)) :
    s₁.peersOf pairs = s.peersOf pairs := by
  have hState (tx : TaskId) : s₁.taskState tx = s.taskState tx := by simp only [taskState, hTasks]
  simp only [peersOf, hState]

theorem Drained.status_step (env : Env) (hDrained : s.Drained) {tx : TaskId} {c : VoiceConnection}
    (hTask : s.spawned[tx]? = some c) (hRunning : c.running = true) (await : Await) :
    ∃ s₁, VoiceChannel.step env ((s.asking tx c .status).waiting await) (.task tx .control) =
        some (s₁, []) ∧
      s₁.spawned = s.spawned ∧ s₁.await = await ∧ s₁.oneshot = some (.status c.state) := by
  have hQueue : c.controlChan = [] := hDrained tx c hTask hRunning
  have hSelf : { c with controlChan := [] } = c := by
    cases c
    cases hQueue
    rfl
  refine ⟨((s.asking tx c .status).waiting await).polled tx
    { task := c, reply := some (.status c.state) }, ?_, ?_, rfl, rfl⟩
  · have hLookup : ((s.asking tx c .status).waiting await).spawned[tx]? =
        some { c with controlChan := [.status] } := by
      rw [waiting_spawned, asking_spawned, getElem?_set_iff hTask, hQueue]
      exact .inl ⟨rfl, rfl⟩
    simp only [VoiceChannel.step, pollTask, hLookup, poll_status env hRunning, hSelf]
    rfl
  · rw [polled_spawned, waiting_spawned, asking_spawned, List.set_set]
    obtain ⟨hLt, hGet⟩ := List.getElem?_eq_some_iff.mp hTask
    rw [← hGet, List.set_getElem_self]

/-- When every task answers at once, the answer lists the peered pairs. -/
theorem Drained.answers (env : Env) (rest : List (Uuid × Conn)) (peers : List Peer)
    (hDrained : s.Drained) : ∃ s', Answers env (peers ++ s.peersOf rest) s' (s.pollPeers rest peers) ∧
      s'.spawned = s.spawned := by
  induction rest generalizing s peers with
  | nil =>
    refine ⟨s.turn, ?_, rfl⟩
    rw [peersOf, List.filter_nil, List.map_nil, List.append_nil]
    exact .now
  | cons pair rest ih =>
    obtain ⟨id, conn⟩ := pair
    unfold VoiceChannel.pollPeers
    cases hAsked : s.request conn.ctl.tx .status with
    | none =>
      have hStopped : s.taskRunning conn.ctl.tx = false := request_eq_none_iff.mp hAsked
      have hNot : ¬ s.IsPeered conn := fun hPeered => by simp [running_of_peered hPeered] at hStopped
      have hSkip : s.peersOf ((id, conn) :: rest) = s.peersOf rest := by
        simp [peersOf, show s.taskState conn.ctl.tx ≠ .peered from hNot]
      rw [hSkip]
      exact ih peers hDrained
    | some asked =>
      obtain ⟨c, hTask, hRunning, rfl⟩ := request_eq_some_iff.mp hAsked
      obtain ⟨s₁, hFirst, hSame, hAwait, hOneshot⟩ :=
        hDrained.status_step env hTask hRunning (.peers id conn rest peers)
      have hDrained₁ : s₁.Drained := by
        intro i d hd
        exact hDrained i d (hSame ▸ hd)
      have hState : s.taskState conn.ctl.tx = c.state := taskState_of hTask
      by_cases hPeered : c.state = .peered
      · have hTake : peers ++ s.peersOf ((id, conn) :: rest) =
            peers ++ [peerOf (id, conn)] ++ s₁.peersOf rest := by
          rw [peersOf_congr hSame]
          simp [peersOf, hState, hPeered]
        obtain ⟨s', hAnswers, hTasks⟩ := ih (peers ++ [peerOf (id, conn)]) hDrained₁
        have hResume : VoiceChannel.step env s₁ .resume =
            some (s₁.pollPeers rest (peers ++ [peerOf (id, conn)])) := by
          simp only [VoiceChannel.step, VoiceChannel.resume, hAwait, resumePeers, hOneshot, hPeered]
          rfl
        exact ⟨s', hTake ▸ hAnswers.after hFirst hResume, hTasks.trans hSame⟩
      · have hSkip : s.peersOf ((id, conn) :: rest) = s₁.peersOf rest := by
          rw [peersOf_congr hSame]
          simp [peersOf, hState, hPeered]
        obtain ⟨s', hAnswers, hTasks⟩ := ih peers hDrained₁
        have hResume : VoiceChannel.step env s₁ .resume = some (s₁.pollPeers rest peers) := by
          simp only [VoiceChannel.step, VoiceChannel.resume, hAwait, resumePeers, hOneshot]
          cases hOther : c.state with
          | peered => exact absurd hOther hPeered
          | waiting | stopped => rfl
        exact ⟨s', hSkip ▸ hAnswers.after hFirst hResume, hTasks.trans hSame⟩

/-- A `Peers` request can be answered with the peered pairs as they are. -/
theorem Drained.peersAnswered (env : Env) (hDrained : s.Drained) (hAwait : s.await = .event) :
    ∃ s', PeersAnswered env s (s.peersOf s.zipped) s' ∧ s'.spawned = s.spawned := by
  obtain ⟨s', hAnswers, hTasks⟩ := hDrained.answers env s.zipped []
  rw [List.nil_append] at hAnswers
  have hStep : VoiceChannel.step env s (.control .peers ⟨0, []⟩) = some (s.pollPeers s.zipped []) :=
    select_eq_some_iff.mpr ⟨hAwait, rfl⟩
  refine ⟨s', ?_, hTasks⟩
  generalize s.pollPeers s.zipped [] = r at hAnswers hStep
  cases hAnswers with
  | now => exact .atOnce _ hStep
  | later s₁ s₂ es tr e hRun hGoesOn hLast =>
    exact .later _ es tr s₂ e (Machine.run_cons_iff.mpr ⟨s₁, [], tr, hStep, hRun, rfl⟩) hGoesOn hLast

/-- Only aligned tables let that answer be right. -/
theorem PeersCorrect.aligned (hWf : s.Wf) {history : List Output} (hTasks : s'.spawned = s.spawned)
    (h : PeersCorrect history s s' (s.peersOf s.zipped)) : s.Aligned where
  paired := by
    intro pair hMem hPeered
    have hPeer : peerOf pair ∈ s.peersOf s.zipped :=
      List.mem_map_of_mem (List.mem_filter.mpr ⟨hMem, decide_eq_true hPeered⟩)
    exact (h.sound _ hPeer).1
  covered := by
    intro id k conn hClient hConn hPeered
    have hStill : s'.IsPeered conn := by
      simpa only [IsPeered, taskState, hTasks] using hPeered
    obtain ⟨p, hp, rfl⟩ := h.complete id k conn hClient hConn hStill
    obtain ⟨hOwn, _⟩ := h.sound p hp
    obtain ⟨pair, hPair, rfl⟩ := List.mem_map.mp hp
    have hMem : pair ∈ s.zipped := (List.mem_filter.mp hPair).1
    obtain ⟨k', hConn'⟩ := mem_zipped hMem
    have hKey : pair.2.ctl.sourceId = k' := (hWf.records k' pair.2 hConn').key
    cases hClient.symm.trans hOwn
    have hSame : pair.2 = conn := by
      rw [← hKey] at hConn'
      exact Option.some.inj (hConn'.symm.trans hConn)
    exact ⟨pair.1, hSame ▸ hMem⟩

/-- With distinct source ids, in every reachable state, every answer to a `Peers` request is right
exactly when the tables are aligned. -/
theorem peersCorrect_iff (env : Env) (roomId : Uuid) (now : Instant) (es : List Event)
    (s : VoiceChannel) (tr : List Output)
    (hRun : Machine.run (VoiceChannel.step env) (new roomId now) es = some (s, tr))
    (hDistinct : s.Distinct) (hAwait : s.await = .event) :
    (∀ peers s', PeersAnswered env s peers s' → PeersCorrect tr s s' peers) ↔ s.Aligned := by
  have hWf : s.Wf := wf hRun
  constructor
  · intro hCorrect
    have hDrained : s.Drained := fun i c hTask hRunning =>
      hWf.drained (settled_of_event hAwait) hTask hRunning
    obtain ⟨s', hAnswered, hTasks⟩ := hDrained.peersAnswered env hAwait
    exact (hCorrect _ s' hAnswered).aligned hWf hTasks
  · intro hAligned peers s' hAnswered
    exact hAligned.correct hWf (owned hRun hDistinct) (named hRun) (hAnswered.gathered hWf)

/-- Two clients peer, and the one with the smaller id has the larger source id. -/
def crossed : List Event :=
  [.control (.openConnection 1 "a") ⟨20, []⟩, .control (.openConnection 2 "b") ⟨10, []⟩,
    .control (.establish 1 ⟨.v4 1, 9⟩) ⟨0, []⟩, .task 0 .control, .resume,
    .control (.establish 2 ⟨.v4 2, 9⟩) ⟨0, []⟩, .task 1 .control, .resume]

theorem crossed_run : ∃ s tr, Machine.run (VoiceChannel.step .bare) (new 7 0) crossed = some (s, tr) ∧
    s.Distinct ∧ s.await = .event ∧ s.forwarder.clientIdToSrcId[(1 : Uuid)]? = some 20 ∧
    s.zipped.map (fun pair => (pair.1, pair.2.ctl.sourceId, s.taskState pair.2.ctl.tx)) =
      [(1, 10, .peered), (2, 20, .peered)] := by
  have hLast : (Machine.run (VoiceChannel.step .bare) (new 7 0) crossed).map (fun last =>
      (decide ((last.1.spawned.map VoiceConnection.sourceId).Nodup ∧ last.1.await = .event),
        last.1.forwarder.clientIdToSrcId[(1 : Uuid)]?,
        last.1.zipped.map (fun pair =>
          (pair.1, pair.2.ctl.sourceId, last.1.taskState pair.2.ctl.tx)))) =
      some (true, some 20, [(1, 10, .peered), (2, 20, .peered)]) := by
    decide
  obtain ⟨⟨s, tr⟩, hRun, hState⟩ := Option.map_eq_some_iff.mp hLast
  simp only [Prod.mk.injEq, decide_eq_true_eq] at hState
  obtain ⟨⟨hNodup, hAwait⟩, hClient, hZipped⟩ := hState
  exact ⟨s, tr, hRun, distinct_of_nodup hNodup, hAwait, hClient, hZipped⟩

theorem peersCorrect_iff_crossed : ∃ s tr,
    Machine.run (VoiceChannel.step .bare) (new 7 0) crossed = some (s, tr) ∧
      ((∀ peers s', PeersAnswered .bare s peers s' → PeersCorrect tr s s' peers) ↔ s.Aligned) := by
  obtain ⟨s, tr, hRun, hDistinct, hAwait, _⟩ := crossed_run
  exact ⟨s, tr, hRun, peersCorrect_iff .bare 7 0 crossed s tr hRun hDistinct hAwait⟩

/-- The answer names client 1 with the source id and the name of client 2. -/
theorem not_peersCorrect : ¬ ∀ (env : Env) (roomId : Uuid) (now : Instant) (es : List Event)
    (s : VoiceChannel) (tr : List Output) (peers : List Peer) (s' : VoiceChannel),
    Machine.run (VoiceChannel.step env) (new roomId now) es = some (s, tr) → s.Distinct →
    PeersAnswered env s peers s' → PeersCorrect tr s s' peers := by
  intro hAll
  obtain ⟨s, tr, hRun, hDistinct, hAwait, hClient, hZipped⟩ := crossed_run
  have hWf : s.Wf := wf hRun
  have hDrained : s.Drained := fun i c hTask hRunning =>
    hWf.drained (settled_of_event hAwait) hTask hRunning
  obtain ⟨s', hAnswered, hTasks⟩ := hDrained.peersAnswered .bare hAwait
  have hAligned := (hAll .bare 7 0 crossed s tr _ s' hRun hDistinct hAnswered).aligned hWf hTasks
  have hMem : (1, 10, ConnectionState.peered) ∈ s.zipped.map (fun pair =>
      (pair.1, pair.2.ctl.sourceId, s.taskState pair.2.ctl.tx)) := by
    rw [hZipped]
    exact List.mem_cons_self
  obtain ⟨pair, hPair, hEq⟩ := List.mem_map.mp hMem
  simp only [Prod.mk.injEq] at hEq
  obtain ⟨hId, hSource, hPeered⟩ := hEq
  have hPaired := hAligned.paired pair hPair hPeered
  rw [hId, hSource, hClient] at hPaired
  revert hPaired
  decide

end VoiceChannel

end Voices.VoiceServer
