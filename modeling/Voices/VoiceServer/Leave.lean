import Voices.VoiceServer.Handlers

/-!
# Handling a leave

A leave is for a client, and stops the connection to which the id of that
client leads when the forwarder takes it. No other connection notices.
-/

namespace Voices.VoiceServer

open Semantics Std

variable {env : Env}

theorem VoiceConnection.poll_control_nil {c : VoiceConnection} (hQueue : c.controlChan = [])
    (now : Instant) (log : List (UInt32 × Voice)) : c.poll env now true log .control = none := by
  cases hPhase : c.phase <;>
    simp [VoiceConnection.poll, hPhase, VoiceConnection.run, VoiceConnection.peered, hQueue]

theorem VoiceConnection.poll_control_stop {c : VoiceConnection} {rest : List ControlRequest}
    (hRunning : c.running = true) (hQueue : c.controlChan = .stop :: rest) (env : Env) (now : Instant)
    (senders : Bool) (log : List (UInt32 × Voice)) :
    c.poll env now senders log .control = some { task := c.finish, reply := some .stop } := by
  cases hPhase : c.phase with
  | ended => exact absurd hPhase (VoiceConnection.running_iff.mp hRunning)
  | waiting | peered =>
    simp [VoiceConnection.poll, hPhase, VoiceConnection.run, VoiceConnection.peered, hQueue]

theorem PollEffect.stop_reply {c : VoiceConnection} {now : Instant} {log : List (UInt32 × Voice)}
    {outcome : Outcome} (h : PollEffect env c now log outcome) (hQueue : c.controlChan = [.stop])
    (hRunning : outcome.task.running = true) : outcome.reply = none := by
  cases h <;> simp_all

namespace VoiceChannel

def Alive (s : VoiceChannel) (t : TaskId) : Prop :=
  s.taskRunning t = true ∧ ∃ (k : UInt32) (conn : Conn),
    s.forwarder.connections[k]? = some conn ∧ conn.tx = t

def current (s : VoiceChannel) (clientId : Uuid) : Option Conn :=
  s.forwarder.clientIdToSrcId[clientId]?.bind (s.forwarder.connections[·]?)

/-- The forwarder handles at most a leave, and waits for another task than the given one. -/
structure Bystander (s : VoiceChannel) (t : TaskId) : Prop where
  wf : s.Wf
  alive : s.Alive t
  await : s.await = .event ∨ ∃ clientId tx, s.await = .control (.leave clientId) tx ∧ tx ≠ t

variable {s s' : VoiceChannel} {o : List Output} {t : TaskId}

theorem Alive.senders (hAlive : s.Alive t) : s.senders t = true := by
  obtain ⟨_, k, conn, hConn, rfl⟩ := hAlive
  refine List.any_eq_true.mpr ⟨(k, conn), TreeMap.mem_toList_iff_getElem?_eq_some.mpr hConn, ?_⟩
  simp

theorem Bystander.queue (h : s.Bystander t) {c : VoiceConnection} (hTask : s.spawned[t]? = some c) :
    c.controlChan = [] := by
  have hRunning : c.running = true := taskRunning_of hTask ▸ h.alive.1
  rw [h.wf.queues t c hTask hRunning]
  rcases h.await with hEvent | ⟨clientId, tx, hControl, hNe⟩
  · simp [hEvent, Await.on]
  · simp [hControl, Await.on, hNe]

theorem Bystander.tick (h : s.Bystander t) {millis : Nat}
    (hStep : step env s (.tick millis) = some (s', o)) : s'.Bystander t := by
  have hWf : s'.Wf := h.wf.step (step_effect hStep)
  cases hStep
  exact ⟨hWf, h.alive, h.await⟩

theorem Bystander.task (h : s.Bystander t) {tx : TaskId} {branch : Branch}
    (hBranch : branch = .control ∨ tx ≠ t) (hStep : step env s (.task tx branch) = some (s', o)) :
    s'.Bystander t := by
  have hWf : s'.Wf := h.wf.step (step_effect hStep)
  obtain ⟨c, outcome, hTask, _, rfl, _⟩ := task_step hStep
  have hNe : tx ≠ t := by
    rintro rfl
    -- nothing is in its queue, which the record keeps open
    obtain rfl : branch = .control := hBranch.resolve_right (fun hNe => hNe rfl)
    simp [step, pollTask, hTask, h.alive.senders,
      VoiceConnection.poll_control_nil (h.queue hTask)] at hStep
  refine ⟨hWf, ⟨?_, h.alive.2⟩, h.await⟩
  obtain ⟨d, hOld, hRunning⟩ := taskRunning_iff.mp h.alive.1
  exact taskRunning_iff.mpr ⟨d, getElem?_set_there hTask hNe.symm hOld, hRunning⟩

theorem Bystander.resume (h : s.Bystander t) (hStep : step env s .resume = some (s', o)) :
    s'.Bystander t := by
  have hWf : s'.Wf := h.wf.step (step_effect hStep)
  have hTurn : s' = s.turn := by
    simp only [step, VoiceChannel.resume] at hStep
    rcases h.await with hEvent | ⟨clientId, tx, hControl, _⟩
    · simp [hEvent] at hStep
    · rw [hControl] at hStep
      simp only [resumeControl] at hStep
      split at hStep <;> simp_all [respond, returned]
  subst hTurn
  exact ⟨hWf, h.alive, .inl rfl⟩

theorem leave_eq (s : VoiceChannel) (clientId : Uuid) :
    s.leave clientId =
      match s.current clientId with
      | none => s.respond (.leave clientId) .left
      | some conn =>
        match s.request conn.ctl.tx .stop with
        | some asked => (asked.waiting (.control (.leave clientId) conn.ctl.tx), [])
        | none => s.respond (.leave clientId) .left := rfl

/-- The forwarder takes a leave that leads to another task, or to none that is running. -/
theorem Wf.leave_bystander (hWf : s.Wf) (hAlive : s.Alive t) {clientId : Uuid} {draw : Draw}
    (hOther : ∀ conn ∈ s.current clientId, s.taskRunning conn.tx = true → conn.tx ≠ t)
    (hStep : VoiceChannel.step env s (.control (.leave clientId) draw) = some (s', o)) :
    s'.Bystander t := by
  have hWf' : s'.Wf := hWf.step (step_effect hStep)
  obtain ⟨hAwait, hLeave⟩ := select_eq_some_iff.mp hStep
  rw [controlMsg, leave_eq] at hLeave
  cases hCurrent : s.current clientId with
  | none =>
    rw [hCurrent] at hLeave
    cases hLeave
    exact ⟨hWf', hAlive, .inl rfl⟩
  | some conn =>
    obtain ⟨k, _, hConn⟩ := Option.bind_eq_some_iff.mp hCurrent
    have hCtl : conn.ctl.tx = conn.tx := (hWf.records k conn hConn).ctl
    rw [hCurrent] at hLeave
    cases hRequest : s.request conn.ctl.tx .stop with
    | none =>
      simp only [hRequest] at hLeave
      cases hLeave
      exact ⟨hWf', hAlive, .inl rfl⟩
    | some asked =>
      simp only [hRequest] at hLeave
      cases hLeave
      obtain ⟨c, hTask, hRunning, rfl⟩ := request_eq_some_iff.mp hRequest
      have hNe : conn.ctl.tx ≠ t := by
        rw [hCtl] at hTask ⊢
        exact hOther conn hCurrent (taskRunning_iff.mpr ⟨c, hTask, hRunning⟩)
      refine ⟨hWf', ⟨?_, hAlive.2⟩, .inr ⟨clientId, _, rfl, hNe⟩⟩
      obtain ⟨d, hOld, hRun⟩ := taskRunning_iff.mp hAlive.1
      exact taskRunning_iff.mpr ⟨d, getElem?_set_there hTask hNe.symm hOld, hRun⟩

theorem Wf.leave_stops (hWf : s.Wf) (hAwait : s.await = .event) {clientId : Uuid} {conn : Conn}
    (hCurrent : s.current clientId = some conn) (hRunning : s.taskRunning conn.tx = true)
    (env : Env) (draw : Draw) :
    ∃ (s₁ s₂ : VoiceChannel) (o tr : List Output),
      VoiceChannel.step env s (.control (.leave clientId) draw) = some (s₁, o) ∧
        Machine.run (VoiceChannel.step env) s₁ [.task conn.tx .control, .resume] = some (s₂, tr) ∧
        s₂.await = .event ∧ s₂.taskRunning conn.tx = false ∧
        .answered (.leave clientId) .left ∈ tr ∧
        ∀ i, i ≠ conn.tx → s.taskRunning i = true → s₂.taskRunning i = true := by
  obtain ⟨k, _, hConn⟩ := Option.bind_eq_some_iff.mp hCurrent
  have hCtl : conn.ctl.tx = conn.tx := (hWf.records k conn hConn).ctl
  obtain ⟨c, hTask, hRun⟩ := taskRunning_iff.mp hRunning
  have hQueue : c.controlChan = [] := hWf.drained (settled_of_event hAwait) hTask hRun
  let asked : VoiceConnection := { c with controlChan := [.stop] }
  let s₁ : VoiceChannel := (s.asking conn.tx c .stop).waiting (.control (.leave clientId) conn.tx)
  have hAsked : s₁.spawned[conn.tx]? = some asked := by
    rw [waiting_spawned, asking_spawned, hQueue]
    exact getElem?_set_here hTask
  have hLeave : VoiceChannel.step env s (.control (.leave clientId) draw) = some (s₁, []) := by
    refine select_eq_some_iff.mpr ⟨hAwait, ?_⟩
    rw [controlMsg, leave_eq, hCurrent]
    simp only [hCtl, request_eq_some_iff.mpr ⟨c, hTask, hRun, rfl⟩]
    rfl
  let outcome : Outcome := { task := asked.finish, reply := some .stop }
  have hStop : VoiceChannel.step env s₁ (.task conn.tx .control) = some (s₁.polled conn.tx outcome, []) := by
    have hRun' : asked.running = true := hRun
    have hStopped := VoiceConnection.poll_control_stop hRun' rfl env s₁.now
      (s₁.senders conn.tx) s₁.voice
    simp only [VoiceChannel.step, pollTask, hAsked, hStopped]
    rfl
  have hResume : VoiceChannel.step env (s₁.polled conn.tx outcome) .resume =
      some ((s₁.polled conn.tx outcome).respond (.leave clientId) .left) := rfl
  refine ⟨s₁, _, [], _, hLeave, Machine.run_cons_iff.mpr ⟨_, _, _, hStop,
    Machine.run_singleton_iff.mpr hResume, rfl⟩, rfl, ?_, by simp, ?_⟩
  · have hEnded : (s₁.polled conn.tx outcome).spawned[conn.tx]? = some asked.finish :=
      getElem?_set_here hAsked
    exact (taskRunning_of hEnded).trans asked.finish_running
  · intro i hNe hOther
    obtain ⟨d, hOld, hRunD⟩ := taskRunning_iff.mp hOther
    have hStill : s₁.spawned[i]? = some d := getElem?_set_there hTask hNe hOld
    exact taskRunning_iff.mpr ⟨d, getElem?_set_there hAsked hNe hStill, hRunD⟩

/-- Once a leave taken now has been answered, and until the client opens a connection again, no
connection that it had opened is running, so that none of them speaks or is spoken to. -/
def Leaves (env : Env) (s : VoiceChannel) (clientId : Uuid) : Prop :=
  ∀ (draw : Draw) (es : List Event) (s₁ s₂ : VoiceChannel) (o tr : List Output),
    step env s (.control (.leave clientId) draw) = some (s₁, o) →
    Machine.run (step env) s₁ es = some (s₂, tr) →
    .answered (.leave clientId) .left ∈ o ++ tr →
    (∀ userName draw, .control (.openConnection clientId userName) draw ∉ es) →
    ∀ (i : TaskId) (c : VoiceConnection), s.spawned[i]? = some c → c.clientId = clientId →
      s₂.taskRunning i = false ∧ ∀ branch, step env s₂ (.task i branch) = none

/-- Every running connection of the client is the one to which its id leads. -/
def OneRunning (s : VoiceChannel) (clientId : Uuid) : Prop :=
  ∀ (i : TaskId) (c : VoiceConnection), s.spawned[i]? = some c → c.clientId = clientId →
    c.running = true → ∃ conn, s.current clientId = some conn ∧ conn.tx = i

/-- While the task runs, its stop is still awaited. -/
def Stopping (s : VoiceChannel) (clientId : Uuid) (i : TaskId) (tr : List Output) : Prop :=
  s.taskRunning i = true → .answered (.leave clientId) .left ∉ tr ∧
    s.await = .control (.leave clientId) i ∧ s.oneshot = none

variable {i : TaskId} {clientId : Uuid} {e : Event} {tr : List Output}

theorem step_task_none (h : s.taskRunning i = false) (branch : Branch) :
    step env s (.task i branch) = none := by
  cases hTask : s.spawned[i]? with
  | none => simp [step, pollTask, hTask]
  | some c =>
    have hPhase := VoiceConnection.running_eq_false_iff.mp ((taskRunning_of hTask).symm.trans h)
    simp [step, pollTask, hTask, VoiceConnection.poll, hPhase]

theorem Stopping.step (h : s.Stopping clientId i tr) (hWf : s.Wf) (hLt : i < s.spawned.length)
    (hStep : VoiceChannel.step env s e = some (s', o)) : s'.Stopping clientId i (tr ++ o) := by
  intro hRunning'
  have hRunning : s.taskRunning i = true := by
    rcases (step_effect hStep).tasks.running hRunning' with hRunning | ⟨_, _, _, _, hNew⟩
    · exact hRunning
    · exact absurd hNew (Nat.ne_of_lt hLt)
  obtain ⟨hPending, hAwait, hOneshot⟩ := h hRunning
  obtain ⟨c, hTask, hRun⟩ := taskRunning_iff.mp hRunning
  have hOn : s.await.on = some i := by simp [hAwait, Await.on]
  have hQueue : c.controlChan = [.stop] := by
    rw [hWf.queues i c hTask hRun, if_pos ⟨hOn, hOneshot⟩, hAwait, Await.request]
  cases pends hAwait hStep with
  | ticked millis => exact ⟨by simpa using hPending, hAwait, hOneshot⟩
  | polled tx branch d outcome hTask' hPoll =>
    have hReply : outcome.reply = none := by
      rcases eq_or_ne tx i with rfl | hNe
      · cases hTask.symm.trans hTask'
        refine hPoll.stop_reply hQueue ?_
        rwa [taskRunning_of (getElem?_set_here hTask')] at hRunning'
      · refine Option.eq_none_iff_forall_ne_some.mpr fun reply hReply => ?_
        obtain ⟨hRunD, request, rest, hQueueD, _⟩ := hPoll.reply hReply
        obtain ⟨hOnD, _⟩ := hWf.awaited hTask' hRunD hQueueD
        exact hNe (Option.some.inj (hOnD.symm.trans hOn))
    refine ⟨?_, hAwait, by simp [hReply, hOneshot]⟩
    simpa using hPending
  | resumed s' o hResume =>
    -- the handler goes on with an answer, or without the task
    simp [resumeControl, hOneshot, hRunning] at hResume
  | idled deadline hIdle =>
    have hStopped := hWf.stopped_of_idle (by simp [held, hAwait]) hIdle i
    cases hRunning.symm.trans hStopped

theorem stopping_run {es : List Event} {s₁ s₂ : VoiceChannel} (hWf : s₁.Wf)
    (hLt : i < s₁.spawned.length) (h : s₁.Stopping clientId i o)
    (hRun : Machine.run (VoiceChannel.step env) s₁ es = some (s₂, tr)) :
    s₂.Stopping clientId i (o ++ tr) := by
  have hAll : s₂.Wf ∧ i < s₂.spawned.length ∧ s₂.Stopping clientId i (o ++ tr) := by
    refine Machine.run_induction
      (P := fun s tr => s.Wf ∧ i < s.spawned.length ∧ s.Stopping clientId i (o ++ tr)) ?_ ?_ hRun
    · exact ⟨hWf, hLt, by rwa [List.append_nil]⟩
    · rintro s tr e s' o' ⟨hWf, hLt, hStopping⟩ hStep
      have hEffect := step_effect hStep
      refine ⟨hWf.step hEffect, Nat.lt_of_lt_of_le hLt hEffect.tasks.length_le, ?_⟩
      rw [← List.append_assoc]
      exact hStopping.step hWf hLt hStep
  exact hAll.2.2

/-- Taking the leave asks the only running connection of the client to stop. -/
theorem OneRunning.stopping (hOne : s.OneRunning clientId) (hWf : s.Wf) {c : VoiceConnection}
    (hTask : s.spawned[i]? = some c) (hClient : c.clientId = clientId) {draw : Draw}
    (hStep : VoiceChannel.step env s (.control (.leave clientId) draw) = some (s', o)) :
    s'.Stopping clientId i o := by
  intro hRunning'
  have hLt : i < s.spawned.length := (List.getElem?_eq_some_iff.mp hTask).1
  have hRunning : s.taskRunning i = true := by
    rcases (step_effect hStep).tasks.running hRunning' with hRunning | ⟨_, _, _, _, hNew⟩
    · exact hRunning
    · exact absurd hNew (Nat.ne_of_lt hLt)
  have hRun : c.running = true := (taskRunning_of hTask).symm.trans hRunning
  obtain ⟨conn, hCurrent, rfl⟩ := hOne i c hTask hClient hRun
  obtain ⟨k, _, hConn⟩ := Option.bind_eq_some_iff.mp hCurrent
  obtain ⟨_, hLeave⟩ := select_eq_some_iff.mp hStep
  rw [controlMsg, leave_eq, hCurrent] at hLeave
  simp only [(hWf.records k conn hConn).ctl,
    request_eq_some_iff.mpr ⟨c, hTask, hRun, rfl⟩] at hLeave
  cases hLeave
  exact ⟨by simp, rfl, rfl⟩

theorem OneRunning.leaves (hOne : s.OneRunning clientId) (hWf : s.Wf) : s.Leaves env clientId := by
  intro draw es s₁ s₂ o tr hLeave hRun hAnswered _ i c hTask hClient
  have hEffect := step_effect hLeave
  have hLt : i < s₁.spawned.length := Nat.lt_of_lt_of_le
    (List.getElem?_eq_some_iff.mp hTask).1 hEffect.tasks.length_le
  have hStopping := stopping_run (hWf.step hEffect) hLt (hOne.stopping hWf hTask hClient hLeave) hRun
  have hEnded : s₂.taskRunning i = false := by
    cases hRunning : s₂.taskRunning i with
    | false => rfl
    | true => exact absurd hAnswered (hStopping hRunning).1
  exact ⟨hEnded, step_task_none hEnded⟩

theorem Leaves.oneRunning (h : s.Leaves env clientId) (hWf : s.Wf) (hAwait : s.await = .event) :
    s.OneRunning clientId := by
  intro i c hTask hClient hRun
  have hRunning : s.taskRunning i = true := (taskRunning_of hTask).trans hRun
  by_contra hOther
  let draw : Draw := ⟨0, []⟩
  by_cases hAsked : ∃ conn, s.current clientId = some conn ∧ s.taskRunning conn.tx = true
  · obtain ⟨conn, hCurrent, hRunning'⟩ := hAsked
    obtain ⟨s₁, s₂, o, tr, hLeave, hStop, _, _, hAnswered, hOthers⟩ :=
      hWf.leave_stops hAwait hCurrent hRunning' env draw
    have hStill : s₂.taskRunning i = true :=
      hOthers i (fun hEq => hOther ⟨conn, hCurrent, hEq.symm⟩) hRunning
    have hEnded := (h draw _ s₁ s₂ o tr hLeave hStop (List.mem_append_right o hAnswered) (by simp)
      i c hTask hClient).1
    rw [hStill] at hEnded
    cases hEnded
  · -- nobody is asked to stop, and the answer is there at once
    have hLeave : VoiceChannel.step env s (.control (.leave clientId) draw) =
        some (s.respond (.leave clientId) .left) := by
      refine select_eq_some_iff.mpr ⟨hAwait, ?_⟩
      rw [controlMsg, leave_eq]
      cases hCurrent : s.current clientId with
      | none => rfl
      | some conn =>
        obtain ⟨k, _, hConn⟩ := Option.bind_eq_some_iff.mp hCurrent
        have hStopped : s.taskRunning conn.ctl.tx = false := by
          rw [(hWf.records k conn hConn).ctl]
          simpa using fun hTrue => hAsked ⟨conn, hCurrent, hTrue⟩
        simp only [request_eq_none_iff.mpr hStopped]
    have hEnded := (h draw [] s.turn s.turn _ [] hLeave rfl (by simp) (by simp) i c hTask hClient).1
    exact absurd (hRunning.symm.trans hEnded) (by simp)

/-- In every reachable state a leave really leaves exactly when the client's id leads to its only
running connection. -/
theorem leaves_iff (env : Env) (roomId : Uuid) (now : Instant) (es : List Event) (s : VoiceChannel)
    (tr : List Output) (hRun : Machine.run (VoiceChannel.step env) (new roomId now) es = some (s, tr))
    (clientId : Uuid) (hAwait : s.await = .event) :
    s.Leaves env clientId ↔ s.OneRunning clientId :=
  ⟨fun h => h.oneRunning (wf hRun) hAwait, fun h => h.leaves (wf hRun)⟩

/-- A client opens a connection twice, and its id leads to the second one. -/
def openedTwice : List Event :=
  [.control (.openConnection 1 "a") ⟨10, []⟩, .control (.openConnection 1 "a") ⟨11, []⟩]

theorem leaves_iff_openedTwice : ∃ s tr,
    Machine.run (VoiceChannel.step .bare) (new 7 0) openedTwice = some (s, tr) ∧
      (s.Leaves .bare 1 ↔ s.OneRunning 1) := by
  have hLast : (Machine.run (VoiceChannel.step .bare) (new 7 0) openedTwice).map (fun last =>
      decide (last.1.await = .event)) = some true := by
    decide
  obtain ⟨⟨s, tr⟩, hRun, hState⟩ := Option.map_eq_some_iff.mp hLast
  exact ⟨s, tr, hRun, leaves_iff .bare 7 0 openedTwice s tr hRun 1 (of_decide_eq_true hState)⟩

/-- The first connection stays when the second one has been stopped. -/
theorem not_leaves : ¬ ∀ (env : Env) (roomId : Uuid) (now : Instant) (es : List Event)
    (s : VoiceChannel) (tr : List Output) (clientId : Uuid),
    Machine.run (VoiceChannel.step env) (new roomId now) es = some (s, tr) → s.await = .event →
    s.Leaves env clientId := by
  intro hAll
  let rest : List Event := [.task 1 .control, .resume]
  have hLast : (Machine.run (VoiceChannel.step .bare) (new 7 0) openedTwice).map (fun last =>
      decide (last.1.await = .event ∧ last.1.spawned[0]?.map VoiceConnection.clientId = some 1 ∧
        (VoiceChannel.step .bare last.1 (.control (.leave 1) ⟨0, []⟩)).map (fun first =>
          (first.2, (Machine.run (VoiceChannel.step .bare) first.1 rest).map (fun after =>
            (after.2, after.1.taskRunning 0)))) =
        some ([], some ([.answered (.leave 1) .left, .returned (.ok true)], true)))) =
      some true := by
    decide
  obtain ⟨⟨s, tr⟩, hRun, hState⟩ := Option.map_eq_some_iff.mp hLast
  obtain ⟨hAwait, hClient, hRest⟩ := of_decide_eq_true hState
  obtain ⟨c, hTask, hId⟩ := Option.map_eq_some_iff.mp hClient
  obtain ⟨⟨s₁, o⟩, hLeave, hFirst⟩ := Option.map_eq_some_iff.mp hRest
  obtain ⟨rfl, hAfter⟩ := Prod.mk.inj hFirst
  obtain ⟨⟨s₂, tr₂⟩, hRun₂, hBoth⟩ := Option.map_eq_some_iff.mp hAfter
  obtain ⟨rfl, hRunning⟩ := Prod.mk.inj hBoth
  have hEnded := (hAll .bare 7 0 openedTwice s tr 1 hRun hAwait ⟨0, []⟩ rest s₁ s₂ [] _ hLeave hRun₂
    (by simp) (by simp [rest]) 0 c hTask hId).1
  exact absurd (hRunning.symm.trans hEnded) (by simp)

end VoiceChannel

end Voices.VoiceServer
