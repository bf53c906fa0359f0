import Voices.VoiceServer.Tables

/-!
# Where a task sends

A task takes the address of its peer from the first `Init` and sends all that it
sends to this address.
-/

namespace Voices.VoiceServer

open Semantics

theorem PollEffect.peered_before {env : Env} {c : VoiceConnection} {now : Instant}
    {log : List (UInt32 × Voice)} {outcome : Outcome} (h : PollEffect env c now log outcome) {p' : Peered}
    (hPhase : outcome.task.phase = .peered p') :
    (∃ p, c.phase = .peered p ∧ p.addr = p'.addr) ∨
      ((∃ initTimeout, c.phase = .waiting initTimeout) ∧
        ∃ rest, c.controlChan = .init p'.addr :: rest) := by
  cases h with
  | finished | stopped | unsent => cases hPhase
  | accepted initTimeout addr rest hWaiting hControl =>
    cases hPhase
    exact .inr ⟨⟨initTimeout, hWaiting⟩, rest, hControl⟩
  | answered => exact .inl ⟨p', hPhase, rfl⟩
  | spoke p | ponged p | lagged p | skipped p | relayed p =>
    cases hPhase
    exact .inl ⟨p, by assumption, rfl⟩

/-- A task sends to its peer only. -/
theorem PollEffect.sent_peer {env : Env} {c : VoiceConnection} {now : Instant} {log : List (UInt32 × Voice)}
    {outcome : Outcome} (h : PollEffect env c now log outcome) {addr : SocketAddr} {message : ServerMessage}
    (hMem : .sent addr message ∈ outcome.output) : ∃ p, c.phase = .peered p ∧ p.addr = addr := by
  cases h with
  | ponged p ping rest hPhase =>
    obtain ⟨rfl, _⟩ : addr = p.addr ∧ message = _ := by simpa using hMem
    exact ⟨p, hPhase, rfl⟩
  | relayed p rxPktId voice next use hPhase =>
    obtain ⟨rfl, _⟩ : addr = p.addr ∧ message = _ := by simpa using hMem
    exact ⟨p, hPhase, rfl⟩
  | unsent => simp at hMem
  | _ => cases hMem

theorem PollEffect.waiting_before {env : Env} {c : VoiceConnection} {now : Instant}
    {log : List (UInt32 × Voice)} {outcome : Outcome} (h : PollEffect env c now log outcome)
    {initTimeout : Instant} (hPhase : outcome.task.phase = .waiting initTimeout) :
    c.phase = .waiting initTimeout := by
  cases h with
  | answered => exact hPhase
  | _ => cases hPhase

def Phase.peer : Phase → Option SocketAddr
  | .peered p => some p.addr
  | _ => none

theorem Phase.peer_eq_some_iff {phase : Phase} {addr : SocketAddr} :
    phase.peer = some addr ↔ ∃ p, phase = .peered p ∧ p.addr = addr := by
  cases phase <;> simp [Phase.peer]

namespace VoiceChannel

/-- The task has had its peer, and while it talks to one it is `peer`. -/
def PeeredWith (s : VoiceChannel) (t : TaskId) (peer : SocketAddr) : Prop :=
  ∃ c : VoiceConnection, s.spawned[t]? = some c ∧ (∀ initTimeout, c.phase ≠ .waiting initTimeout) ∧
    ∀ p, c.phase = .peered p → p.addr = peer

/-- All that the task sends goes to one address, which is the one that it is peered with. -/
def SentToPeer (tr : List Output) (t : TaskId) (c : VoiceConnection) : Prop :=
  ∃ peer, (∀ addr message, .task t (.sent addr message) ∈ tr → addr = peer) ∧
    ∀ p, c.phase = .peered p → p.addr = peer

variable {env : Env} {s s' : VoiceChannel} {e : Event} {o tr : List Output} {t : TaskId}
  {peer : SocketAddr}

theorem PeeredWith.later (hTasks : TasksEffect env s s') (h : s.PeeredWith t peer) :
    s'.PeeredWith t peer := by
  obtain ⟨c, hTask, hNot, hPeer⟩ := h
  cases hTasks with
  | kept hSame => exact ⟨c, hSame ▸ hTask, hNot, hPeer⟩
  | polled tx old outcome hOld hPoll hSet =>
    by_cases hEq : t = tx
    · subst hEq
      cases hOld.symm.trans hTask
      refine ⟨outcome.task, hSet ▸ getElem?_set_here hOld, fun initTimeout hWaiting => ?_, fun p hPhase => ?_⟩
      · exact hNot initTimeout (hPoll.waiting_before hWaiting)
      · rcases hPoll.peered_before hPhase with ⟨q, hBefore, hAddr⟩ | ⟨⟨_, hWaiting⟩, _⟩
        · exact hAddr.symm.trans (hPeer q hBefore)
        · exact absurd hWaiting (hNot _)
    · exact ⟨c, hSet ▸ getElem?_set_there hOld hEq hTask, hNot, hPeer⟩
  | queued tx old msgs requests hOld hRunning hSet =>
    by_cases hEq : t = tx
    · subst hEq
      cases hOld.symm.trans hTask
      rw [PeeredWith, hSet]
      exact ⟨_, getElem?_set_here hOld, hNot, hPeer⟩
    · exact ⟨c, hSet ▸ getElem?_set_there hOld hEq hTask, hNot, hPeer⟩
  | opened clientId userName draw hTables hSet =>
    have hLt : t < s.spawned.length := (List.getElem?_eq_some_iff.mp hTask).1
    refine ⟨c, ?_, hNot, hPeer⟩
    rw [hSet]
    simpa [VoiceChannel.opened, VoiceConnection.start, List.getElem?_append_left hLt]

theorem peered_of_sent (h : Effect env s e s' o) {addr : SocketAddr} {message : ServerMessage}
    (hMem : .task t (.sent addr message) ∈ o) :
    ∃ (c : VoiceConnection) (p : Peered), s.spawned[t]? = some c ∧ c.phase = .peered p ∧ p.addr = addr := by
  obtain ⟨c, outcome, hTask, hPoll, hOutput, _⟩ := h.of_task hMem
  obtain ⟨p, hPhase, hAddr⟩ := hPoll.sent_peer hOutput
  exact ⟨c, p, hTask, hPhase, hAddr⟩

theorem peeredWith_of_sent (h : Effect env s e s' o) {message : ServerMessage}
    (hMem : .task t (.sent peer message) ∈ o) : s.PeeredWith t peer := by
  obtain ⟨c, p, hTask, hPhase, rfl⟩ := peered_of_sent h hMem
  refine ⟨c, hTask, by simp [hPhase], fun q hQ => ?_⟩
  cases hPhase.symm.trans hQ
  rfl

theorem PeeredWith.addr_eq (hPeered : s.PeeredWith t peer) (h : Effect env s e s' o) {addr : SocketAddr}
    {message : ServerMessage} (hMem : .task t (.sent addr message) ∈ o) : addr = peer := by
  obtain ⟨c, p, hTask, hPhase, rfl⟩ := peered_of_sent h hMem
  obtain ⟨c', hTask', _, hPeer⟩ := hPeered
  cases hTask.symm.trans hTask'
  exact hPeer p hPhase

/-- A task that has sent something is peered with the address that all of it went to. -/
theorem sent_to_one {roomId : Uuid} {now : Instant} {es : List Event}
    (hRun : Machine.run (VoiceChannel.step env) (new roomId now) es = some (s, tr)) (t : TaskId) :
    (∀ addr message, .task t (.sent addr message) ∉ tr) ∨
      ∃ peer, (∀ addr message, .task t (.sent addr message) ∈ tr → addr = peer) ∧ s.PeeredWith t peer := by
  refine Machine.run_induction (P := fun s tr => (∀ addr message, .task t (.sent addr message) ∉ tr) ∨
      ∃ peer, (∀ addr message, .task t (.sent addr message) ∈ tr → addr = peer) ∧ s.PeeredWith t peer)
    (.inl fun _ _ => List.not_mem_nil) ?_ hRun
  intro s₁ tr₁ e s₂ o ih hStep
  have hEffect : Effect env s₁ e s₂ o := step_effect hStep
  rcases ih with hNone | ⟨peer, hOld, hPeered⟩
  · by_cases hSome : ∃ addr message, .task t (.sent addr message) ∈ o
    · obtain ⟨peer, message, hMem⟩ := hSome
      have hPeered : s₁.PeeredWith t peer := peeredWith_of_sent hEffect hMem
      refine .inr ⟨peer, fun addr message' hMem' => ?_, hPeered.later hEffect.tasks⟩
      rcases List.mem_append.mp hMem' with hOld | hNew
      · exact absurd hOld (hNone addr message')
      · exact hPeered.addr_eq hEffect hNew
    · refine .inl fun addr message hMem => ?_
      rcases List.mem_append.mp hMem with hOld | hNew
      · exact hNone addr message hOld
      · exact hSome ⟨addr, message, hNew⟩
  · refine .inr ⟨peer, fun addr message hMem => ?_, hPeered.later hEffect.tasks⟩
    rcases List.mem_append.mp hMem with hMem | hNew
    · exact hOld addr message hMem
    · exact hPeered.addr_eq hEffect hNew

theorem sentToPeer_of_run {roomId : Uuid} {now : Instant} {es : List Event}
    (hRun : Machine.run (VoiceChannel.step env) (new roomId now) es = some (s, tr))
    {c : VoiceConnection} (hTask : s.spawned[t]? = some c) : SentToPeer tr t c := by
  rcases sent_to_one hRun t with hNone | ⟨peer, hSent, c', hTask', _, hPeer⟩
  · have hNever (addr peer : SocketAddr) (message : ServerMessage)
        (hMem : .task t (.sent addr message) ∈ tr) : addr = peer := absurd hMem (hNone addr message)
    cases hPhase : c.phase.peer with
    | none =>
      refine ⟨⟨.v4 0, 0⟩, fun addr message => hNever addr _ message, fun p hP => ?_⟩
      simp [hP, Phase.peer] at hPhase
    | some peer =>
      obtain ⟨p, hP, hAddr⟩ := Phase.peer_eq_some_iff.mp hPhase
      refine ⟨peer, fun addr message => hNever addr peer message, fun q hQ => ?_⟩
      cases hP.symm.trans hQ
      exact hAddr
  · cases hTask.symm.trans hTask'
    exact ⟨peer, hSent, hPeer⟩

end VoiceChannel

end Voices.VoiceServer
