import Voices.VoiceServer.Tables

/-!
# Handling a datagram

Handling may wait for room in the queue of a task, and the other tasks run
meanwhile. `Serves` speaks of all continuations: the first outcome of a
handler is `Ok(true)`, and a handler without outcome can always be continued
to one. Only a message without payload is not served.
-/

namespace Voices.VoiceServer

open Semantics Std

namespace VoiceChannel

/-- A handler waits for room in the queue of a task, and the turn has no timeout. -/
def Suspended (s : VoiceChannel) : Prop :=
  (∃ tx sender msg, s.await = .forward tx sender msg) ∧ s.idle = none

structure Serves (env : Env) (s : VoiceChannel) (e : Event) : Prop where
  enabled : (step env s e).isSome = true
  safe : ∀ (es : List Event) (s' : VoiceChannel) (tr : List Output),
    Machine.run (step env) s (e :: es) = some (s', tr) →
    tr.find? Output.outcome = some (.returned (.ok true)) ∨
      (tr.find? Output.outcome = none ∧ s'.Suspended)
  live : ∀ (es : List Event) (s' : VoiceChannel) (tr : List Output),
    Machine.run (step env) s (e :: es) = some (s', tr) → tr.find? Output.outcome = none →
    ∃ (es' : List Event) (s'' : VoiceChannel) (tr' : List Output),
      Machine.run (step env) s' es' = some (s'', tr') ∧
        tr'.find? Output.outcome = some (.returned (.ok true))

variable {env : Env} {s s' : VoiceChannel} {e : Event} {o : List Output}

theorem find_outcome_quiet {output : List Output} (hQuiet : ∀ o ∈ output, o.quiet = true)
    (result : EventResult) :
    (output ++ [Output.returned result]).find? Output.outcome = some (.returned result) := by
  have hNone : output.find? Output.outcome = none := by
    rw [List.find?_eq_none]
    intro out hMem
    have hOut := hQuiet out hMem
    cases out <;> simp [Output.quiet] at hOut <;> simp [Output.outcome]
  rw [List.find?_append, hNone]
  rfl

theorem Suspended.step (hSuspended : s.Suspended) (h : Effect env s e s' o) :
    o.find? Output.outcome = some (.returned (.ok true)) ∨
      (o.find? Output.outcome = none ∧ s'.Suspended) := by
  obtain ⟨⟨tx, sender, msg, hAwait⟩, hIdle⟩ := hSuspended
  cases h with
  | ticked millis => exact .inr ⟨rfl, ⟨tx, sender, msg, hAwait⟩, hIdle⟩
  | task tx' branch c outcome =>
    exact .inr ⟨Output.find_outcome_task _ _, ⟨tx, sender, msg, hAwait⟩, hIdle⟩
  | turned e output result hLooping hSettled hQuiet hResult =>
    rcases hResult with rfl | ⟨_, _, _, hControl, _⟩
    · exact .inl (find_outcome_quiet hQuiet _)
    · cases hAwait.symm.trans hControl
  | pushed => exact .inl rfl
  | held sender' bytes sendOk tx' msg' c hAccepts =>
    cases hAwait.symm.trans hAccepts.await_eq
  | asked e tx' c req await hAsks =>
    rcases hAsks with ⟨hEvent, _⟩ | ⟨_, _, _, _, _, hPeers⟩
    · cases hAwait.symm.trans hEvent
    · cases hAwait.symm.trans hPeers
  | idled deadline hLooping hSome => cases hIdle.symm.trans hSome
  | ended hLeaving => cases hAwait.symm.trans hLeaving
  | undone sender' bytes sendOk hEvent => cases hAwait.symm.trans hEvent
  | _ => simp_all

theorem Suspended.run (hSuspended : s.Suspended) {es : List Event} {tr : List Output}
    (hRun : Machine.run (VoiceChannel.step env) s es = some (s', tr)) :
    tr.find? Output.outcome = some (.returned (.ok true)) ∨
      (tr.find? Output.outcome = none ∧ s'.Suspended) := by
  refine Machine.run_induction (P := fun s tr =>
    tr.find? Output.outcome = some (.returned (.ok true)) ∨
      (tr.find? Output.outcome = none ∧ s.Suspended)) (.inr ⟨rfl, hSuspended⟩) ?_ hRun
  rintro s₁ tr e s₂ o (hDone | ⟨hNone, hSuspended⟩) hStep
  · exact .inl (by rw [List.find?_append, hDone]; rfl)
  · rw [List.find?_append, hNone]
    exact hSuspended.step (step_effect hStep)

theorem poll_deadline (env : Env) {c : VoiceConnection} (hRunning : c.running = true) :
    ∃ deadline, ∀ now senders log, deadline ≤ now →
      c.poll env now senders log .deadline = some { task := c.finish } := by
  cases hPhase : c.phase with
  | waiting initTimeout =>
    refine ⟨initTimeout, fun now senders log hLe => ?_⟩
    simp [VoiceConnection.poll, hPhase, VoiceConnection.run, hLe]
  | peered p =>
    refine ⟨p.pingDeadline, fun now senders log hLe => ?_⟩
    simp [VoiceConnection.poll, hPhase, VoiceConnection.peered, hLe]
  | ended => exact absurd hPhase (VoiceConnection.running_iff.mp hRunning)

theorem resume_stopped {tx : TaskId} {sender : SocketAddr} {msg : InternalMsg}
    (hAwait : s.await = .forward tx sender msg) (hStopped : s.taskRunning tx = false) :
    VoiceChannel.step env s .resume = some (s.forwardFailed .stopped) := by
  have hSend : s.sendMsg tx sender msg = s.forwardFailed .stopped := by
    unfold sendMsg
    split
    · rfl
    · rename_i c hTask
      rw [if_neg]
      simpa [taskRunning_of hTask] using hStopped
  simp only [VoiceChannel.step, resume, hAwait, resumeForward]
  split
  · rename_i c hTask
    have hEnded : c.running = false := by rwa [taskRunning_of hTask] at hStopped
    simp [hEnded, hSend]
  · rw [hSend]

/-- The task that the handler waits for times out at the latest, and the handler goes on. -/
theorem Suspended.resumes (env : Env) (hSuspended : s.Suspended) :
    ∃ (es : List Event) (s' : VoiceChannel) (tr : List Output),
      Machine.run (VoiceChannel.step env) s es = some (s', tr) ∧
        tr.find? Output.outcome = some (Output.returned (.ok true)) := by
  obtain ⟨⟨tx, sender, msg, hAwait⟩, _⟩ := hSuspended
  cases hRunning : s.taskRunning tx with
  | false =>
    exact ⟨[.resume], _, _, Machine.run_singleton_iff.mpr (resume_stopped hAwait hRunning), rfl⟩
  | true =>
    obtain ⟨c, hTask, hRunning⟩ := taskRunning_iff.mp hRunning
    obtain ⟨deadline, hPoll⟩ := poll_deadline env hRunning
    let late : VoiceChannel := { s with now := s.now + deadline }
    have hTick : VoiceChannel.step env s (.tick deadline) = some (late, []) := rfl
    have hEnd : VoiceChannel.step env late (.task tx .deadline) =
        some (late.polled tx { task := c.finish }, []) := by
      simp only [VoiceChannel.step, pollTask, late, hTask, hPoll _ _ _ (Nat.le_add_left _ _)]
      rfl
    have hStopped : (late.polled tx { task := c.finish }).taskRunning tx = false := by
      have hLookup : (late.polled tx { task := c.finish }).spawned[tx]? = some c.finish :=
        getElem?_set_here hTask
      exact (taskRunning_of hLookup).trans c.finish_running
    exact ⟨[.tick deadline, .task tx .deadline, .resume], _, _,
      Machine.run_cons_iff.mpr ⟨_, _, _, hTick, Machine.run_cons_iff.mpr ⟨_, _, _, hEnd,
        Machine.run_singleton_iff.mpr (resume_stopped hAwait hStopped), rfl⟩, rfl⟩, rfl⟩

theorem Wf.datagram_step (hWf : s.Wf) (hAwait : s.await = .event) {sender : SocketAddr}
    {bytes : List UInt8} {sendOk : Bool} (hDecode : env.decode bytes ≠ some ⟨none⟩)
    (hStep : VoiceChannel.step env s (.datagram sender bytes sendOk) = some (s', o)) :
    o.find? Output.outcome = some (.returned (.ok true)) ∨
      (o.find? Output.outcome = none ∧ s'.Suspended) := by
  cases step_effect hStep with
  | turned e output result hLooping hSettled hQuiet hResult =>
    rcases hResult with rfl | ⟨_, _, _, hControl, _⟩
    · exact .inl (find_outcome_quiet hQuiet _)
    · cases hAwait.symm.trans hControl
  | pushed => exact .inl rfl
  | held sender bytes sendOk tx msg c hAccepts hTask hRunning =>
    refine .inr ⟨rfl, ⟨tx, sender, msg, rfl⟩, ?_⟩
    cases hIdle : s.idle with
    | none => exact hIdle
    | some deadline =>
      have hStopped := hWf.stopped_of_idle (by simp [VoiceChannel.held, hAwait]) hIdle tx
      simp [taskRunning_of hTask, hRunning] at hStopped
  | undone sender bytes sendOk _ hNone => exact absurd hNone hDecode
  | asked e tx c req await hAsks =>
    rcases hAsks with ⟨_, _, _, hControl⟩ | ⟨hResume, _⟩
    · cases hControl
    · cases hResume

theorem Wf.datagram_run (hWf : s.Wf) (hAwait : s.await = .event) {sender : SocketAddr}
    {bytes : List UInt8} {sendOk : Bool} (hDecode : env.decode bytes ≠ some ⟨none⟩)
    {es : List Event} {tr : List Output}
    (hRun : Machine.run (VoiceChannel.step env) s (.datagram sender bytes sendOk :: es) = some (s', tr)) :
    tr.find? Output.outcome = some (.returned (.ok true)) ∨
      (tr.find? Output.outcome = none ∧ s'.Suspended) := by
  obtain ⟨s₁, o, tr₁, hStep, hRest, rfl⟩ := Machine.run_cons_iff.mp hRun
  rw [List.find?_append]
  rcases hWf.datagram_step hAwait hDecode hStep with hDone | ⟨hNone, hSuspended⟩
  · exact .inl (by rw [hDone]; rfl)
  · rw [hNone]
    exact hSuspended.run hRest

/-- In every reachable state a datagram is served exactly when it is not a message without
payload. -/
theorem serves_datagram_iff (env : Env) (roomId : Uuid) (now : Instant) (es : List Event)
    (s : VoiceChannel) (tr : List Output)
    (hRun : Machine.run (VoiceChannel.step env) (new roomId now) es = some (s, tr))
    (hAwait : s.await = .event) (sender : SocketAddr) (bytes : List UInt8) (sendOk : Bool) :
    s.Serves env (.datagram sender bytes sendOk) ↔ env.decode bytes ≠ some ⟨none⟩ := by
  constructor
  · intro hServes hDecode
    have hStep : VoiceChannel.step env s (.datagram sender bytes sendOk) = some s.panic := by
      simp [VoiceChannel.step, select, hAwait, recvDatagram, hDecode, socketMsg]
    have hSafe := hServes.safe [] _ _ (Machine.run_singleton_iff.mpr hStep)
    simp [Output.outcome] at hSafe
  · intro hDecode
    have hWf : s.Wf := wf hRun
    refine ⟨?_, fun _ _ _ hRun => hWf.datagram_run hAwait hDecode hRun, ?_⟩
    · simp [VoiceChannel.step, select, hAwait]
    · intro es s' tr hRun hNone
      rcases hWf.datagram_run hAwait hDecode hRun with hDone | ⟨_, hSuspended⟩
      · cases hNone.symm.trans hDone
      · exact hSuspended.resumes env

/-- Two clients are established. -/
def established : List Event :=
  [.control (.openConnection 1 "a") ⟨10, [1]⟩, .control (.establish 1 ⟨.v4 1, 9⟩) ⟨0, []⟩,
    .task 0 .control, .resume,
    .control (.openConnection 2 "b") ⟨11, [2]⟩, .control (.establish 2 ⟨.v4 2, 9⟩) ⟨0, []⟩,
    .task 1 .control, .resume]

theorem serves_datagram_iff_established : ∃ s tr,
    Machine.run (VoiceChannel.step .bare) (new 7 0) established = some (s, tr) ∧
      s.spawned.map VoiceConnection.state = [.peered, .peered] ∧
      s.Serves .bare (.datagram ⟨.v4 1, 9⟩ (Env.spoken 10 1 5) true) := by
  have hFacts : (Machine.run (VoiceChannel.step .bare) (new 7 0) established).map (fun last =>
      decide (last.1.await = .event ∧ last.1.spawned.map VoiceConnection.state = [.peered, .peered])) =
        some true := by decide
  obtain ⟨⟨s, tr⟩, hRun, hState⟩ := Option.map_eq_some_iff.mp hFacts
  obtain ⟨hAwait, hPeered⟩ := of_decide_eq_true hState
  refine ⟨s, tr, hRun, hPeered, ?_⟩
  exact (serves_datagram_iff .bare 7 0 established s tr hRun hAwait ⟨.v4 1, 9⟩ (Env.spoken 10 1 5) true).mpr
    (by decide)

/-- The empty datagram brings a channel down in its first state. -/
theorem not_serves_datagram : ¬ ∀ (env : Env) (roomId : Uuid) (now : Instant) (es : List Event)
    (s : VoiceChannel) (tr : List Output) (sender : SocketAddr) (bytes : List UInt8) (sendOk : Bool),
    Machine.run (VoiceChannel.step env) (new roomId now) es = some (s, tr) → s.await = .event →
    s.Serves env (.datagram sender bytes sendOk) := by
  intro hAll
  have hServes := hAll .bare 7 0 [] _ _ ⟨.v4 0, 9⟩ [] true rfl rfl
  have hSafe := hServes.safe [] _ _ (Machine.run_singleton_iff.mpr rfl)
  simp [Output.outcome] at hSafe

end VoiceChannel

end Voices.VoiceServer
