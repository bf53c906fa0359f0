import Voices.Call.Heard

/-!
# Which task serves which client

As long as no two clients have the same client id, an address that is bound to a record, or that a
task was asked to talk to, is the address of the client whose id the task has. So what a task receives
comes from one client, and what this client is sent comes from one task.
-/

namespace Voices.Call

open Semantics VoiceServer Client.Udp

theorem sameAddr_comm (a b : SocketAddr) : sameAddr a b = sameAddr b a := by
  obtain ⟨ip | ip, port⟩ := a <;> obtain ⟨ip' | ip', port'⟩ := b <;>
    simp [sameAddr, Bool.beq_comm]

namespace Talk

/-- No two clients have the same client id. -/
def Named (s : Talk) : Prop :=
  ∀ (i j : Nat) (c d : Caller), s.callers[i]? = some c → s.callers[j]? = some d →
    c.clientId = d.clientId → i = j

theorem named_of_nodup {s : Talk} (h : (s.callers.map Caller.clientId).Nodup) : s.Named := by
  intro i j c d hFirst hSecond hSame
  have hLt : i < (s.callers.map Caller.clientId).length := by
    simpa using (List.getElem?_eq_some_iff.mp hFirst).1
  refine (List.getElem?_inj hLt h).mp ?_
  rw [List.getElem?_map, List.getElem?_map, hFirst, hSecond, Option.map_some, Option.map_some, hSame]

/-- The client at this address is the one of this task. -/
def Reaches (s : Talk) (addr : SocketAddr) (t : TaskId) : Prop :=
  ∃ c ∈ s.callers, c.addr = addr ∧
    ∃ d : VoiceConnection, s.channel.spawned[t]? = some d ∧ d.clientId = c.clientId

structure Routed (tr : List Output) (s : Talk) : Prop where
  owned : s.channel.Owned
  bound : ∀ (k : UInt32) (conn : Conn) (addr : SocketAddr),
    s.channel.forwarder.connections[k]? = some conn → conn.addr = some addr → s.Reaches addr conn.tx
  asked : ∀ addr t, .asked addr t ∈ tr → s.Reaches addr t
  senders : ∀ sender bytes, (sender, bytes) ∈ s.up → ∃ c ∈ s.callers, c.addr = sender
  apart : ∀ (i j : Nat) (c d : Caller), s.callers[i]? = some c → s.callers[j]? = some d →
    sameAddr c.addr d.addr = true → i = j

section Reaches

variable {w : World} {s : Talk} {addr addr' : SocketAddr} {t : TaskId} {i : Nat} {c c' : Caller}

theorem Reaches.unique (hNamed : s.Named) (h : s.Reaches addr t) (h' : s.Reaches addr' t) : addr = addr' := by
  obtain ⟨c, hMem, rfl, d, hTask, hClient⟩ := h
  obtain ⟨c', hMem', rfl, d', hTask', hClient'⟩ := h'
  cases hTask.symm.trans hTask'
  obtain ⟨i, hFound⟩ := List.mem_iff_getElem?.mp hMem
  obtain ⟨j, hFound'⟩ := List.mem_iff_getElem?.mp hMem'
  obtain rfl := hNamed i j c c' hFound hFound' (hClient.symm.trans hClient')
  cases hFound.symm.trans hFound'
  rfl

theorem Reaches.joined (h : s.Reaches addr t) (c : Caller) : (s.joined c).Reaches addr t := by
  obtain ⟨c', hMem, hAddr, hTask⟩ := h
  exact ⟨c', List.mem_append_left _ hMem, hAddr, hTask⟩

theorem Reaches.moved (hCaller : s.callers[i]? = some c) (hAddr : c'.addr = c.addr)
    (hClientId : c'.clientId = c.clientId) (o : List Caller.Output) (h : s.Reaches addr t) :
    (s.moved i c' o).Reaches addr t := by
  obtain ⟨old, hMem, hOld, d, hTask, hClient⟩ := h
  obtain ⟨k, hFound⟩ := List.mem_iff_getElem?.mp hMem
  by_cases hEq : k = i
  · subst hEq
    cases hCaller.symm.trans hFound
    exact ⟨c', List.mem_of_getElem? (getElem?_set_here hCaller), hAddr.trans hOld, d, hTask,
      hClient.trans hClientId.symm⟩
  · exact ⟨old, List.mem_of_getElem? (getElem?_set_there hCaller hEq hFound), hOld, d, hTask, hClient⟩

theorem Reaches.of_moved (hCaller : s.callers[i]? = some c) (hAddr : c'.addr = c.addr)
    (hClientId : c'.clientId = c.clientId) {o : List Caller.Output} (h : (s.moved i c' o).Reaches addr t) :
    s.Reaches addr t := by
  obtain ⟨d, hMem, hFound, task, hTask, hClient⟩ := h
  rcases List.mem_or_eq_of_mem_set hMem with hOld | rfl
  · exact ⟨d, hOld, hFound, task, hTask, hClient⟩
  · exact ⟨c, List.mem_of_getElem? hCaller, hAddr.symm.trans hFound, task, hTask,
      hClient.trans hClientId⟩

theorem Reaches.served {channel : VoiceChannel} (hTasks : TasksEffect w.env s.channel channel)
    (o : List VoiceServer.Output) (h : s.Reaches addr t) : (s.served channel o).Reaches addr t := by
  obtain ⟨c, hMem, hAddr, d, hTask, hClient⟩ := h
  obtain ⟨d', hTask', hSame⟩ := hTasks.same hTask
  exact ⟨c, hMem, hAddr, d', hTask', hSame.clientId.trans hClient⟩

end Reaches

section Steps

variable {w : World} {tr : List Output} {s s' : Talk}

theorem Reaches.step {e : Event} {o : List Output} (hEffect : Effect w s e s' o) {addr : SocketAddr}
    {t : TaskId} (h : s.Reaches addr t) : s'.Reaches addr t := by
  cases hEffect with
  | joined addr clientId sourceId hNone => exact h.joined _
  | moved i e c c' o hCaller hAllows hEffect =>
    obtain ⟨hAddr, hClientId, _⟩ := effect_same hEffect
    exact h.moved hCaller hAddr hClientId o
  | announced i draw c addr channel o hCaller hPhase hNew hStep =>
    have hTasks := (VoiceChannel.step_effect hStep).tasks
    exact Reaches.served (s := s.moved i { c with announced := true } []) hTasks o
      (h.moved hCaller (announced_addr c) (announced_clientId c) [])
  | served e channel o hAdmits hStep => exact h.served (VoiceChannel.step_effect hStep).tasks o

/-- A client was there before, or joins now at an address that no other one has. -/
theorem Effect.caller_before {e : Event} {o : List Output} (hEffect : Effect w s e s' o) {k : Nat}
    {d : Caller} (hFound : s'.callers[k]? = some d) :
    (∃ c, s.callers[k]? = some c ∧ d.addr = c.addr) ∨
      (k = s.callers.length ∧ o = [] ∧ s'.up = s.up ∧ ∀ c ∈ s.callers, c.addr ≠ d.addr) := by
  cases hEffect with
  | joined addr clientId sourceId hNone =>
    rcases getElem?_snoc_iff.mp hFound with hOld | ⟨rfl, rfl⟩
    · exact .inl ⟨d, hOld, rfl⟩
    · refine .inr ⟨rfl, rfl, rfl, ?_⟩
      rintro c hMem rfl
      cases (hNone c hMem).symm.trans (sameAddr_self c.addr)
  | moved i e c c' o hCaller hAllows hEffect =>
    exact .inl (caller_of_moved hCaller (effect_same hEffect).1 hFound)
  | announced i draw c addr channel o hCaller hPhase hNew hStep =>
    exact .inl (caller_of_moved (o := []) hCaller (announced_addr c) hFound)
  | served => exact .inl ⟨d, hFound, rfl⟩

/-- Nothing that a client has sent is forgotten. -/
theorem Effect.up_grows {e : Event} {o : List Output} (hEffect : Effect w s e s' o) :
    ∃ more, s'.up = s.up ++ more := by
  cases hEffect with
  | joined | served => exact ⟨[], (List.append_nil _).symm⟩
  | moved | announced => exact ⟨_, rfl⟩

theorem Named.of_moved {i : Nat} {c c' : Caller} (hCaller : s.callers[i]? = some c)
    (hClientId : c'.clientId = c.clientId) {o : List Caller.Output} (h : (s.moved i c' o).Named) :
    s.Named := by
  intro j k d d' hFirst hSecond hSame
  obtain ⟨new, hNew, hEq⟩ := moved_caller (o := o) Caller.clientId hCaller hClientId hFirst
  obtain ⟨new', hNew', hEq'⟩ := moved_caller (o := o) Caller.clientId hCaller hClientId hSecond
  exact h j k new new' hNew hNew' (hEq.trans (hSame.trans hEq'.symm))

theorem Effect.named_before {e : Event} {o : List Output} (hEffect : Effect w s e s' o) (h : s'.Named) :
    s.Named := by
  cases hEffect with
  | joined addr clientId sourceId hNone =>
    intro i j c d hFirst hSecond hSame
    exact h i j c d (getElem?_snoc_iff.mpr (.inl hFirst)) (getElem?_snoc_iff.mpr (.inl hSecond)) hSame
  | moved i e c c' o hCaller hAllows hEffect => exact h.of_moved hCaller (effect_same hEffect).2.1
  | announced i draw c addr channel o hCaller hPhase hNew hStep =>
    exact Named.of_moved (o := []) hCaller (announced_clientId c) h
  | served => exact h

theorem Routed.joined (h : Routed tr s) {c : Caller} (hNone : ∀ d ∈ s.callers, sameAddr d.addr c.addr = false) :
    Routed tr (s.joined c) := by
  refine ⟨h.owned, ?_, ?_, ?_, ?_⟩
  · intro k conn addr hConn hAddr
    exact (h.bound k conn addr hConn hAddr).joined c
  · intro addr t hAsked
    exact (h.asked addr t hAsked).joined c
  · intro sender bytes hUp
    obtain ⟨d, hMem, hAddr⟩ := h.senders sender bytes hUp
    exact ⟨d, List.mem_append_left _ hMem, hAddr⟩
  · intro i j d d' hFirst hSecond hSame
    rcases getElem?_snoc_iff.mp hFirst with hOld | ⟨rfl, rfl⟩
    · rcases getElem?_snoc_iff.mp hSecond with hOld' | ⟨rfl, rfl⟩
      · exact h.apart i j d d' hOld hOld' hSame
      · cases hSame.symm.trans (hNone d (List.mem_of_getElem? hOld))
    · rcases getElem?_snoc_iff.mp hSecond with hOld' | ⟨rfl, _⟩
      · rw [sameAddr_comm] at hSame
        cases hSame.symm.trans (hNone d' (List.mem_of_getElem? hOld'))
      · rfl

theorem Routed.moved (h : Routed tr s) {i : Nat} {c c' : Caller} (hCaller : s.callers[i]? = some c)
    (hAddr : c'.addr = c.addr) (hClientId : c'.clientId = c.clientId) (o : List Caller.Output) :
    Routed (tr ++ o.filterMap (Output.ofCaller? i)) (s.moved i c' o) := by
  refine ⟨h.owned, ?_, ?_, ?_, ?_⟩
  · intro k conn addr hConn hBound
    exact (h.bound k conn addr hConn hBound).moved hCaller hAddr hClientId o
  · intro addr t hAsked
    rcases List.mem_append.mp hAsked with hOld | hNew
    · exact (h.asked addr t hOld).moved hCaller hAddr hClientId o
    · exact absurd hNew asked_not_mem
  · intro sender bytes hUp
    rcases mem_up hUp with hOld | ⟨rfl, _⟩
    · obtain ⟨d, hMem, hEq⟩ := h.senders sender bytes hOld
      obtain ⟨k, hFound⟩ := List.mem_iff_getElem?.mp hMem
      obtain ⟨d', hFound', hSame⟩ := moved_caller (o := o) Caller.addr hCaller hAddr hFound
      exact ⟨d', List.mem_of_getElem? hFound', hSame.trans hEq⟩
    · exact ⟨c', List.mem_of_getElem? (getElem?_set_here hCaller), rfl⟩
  · intro j k d d' hFirst hSecond hSame
    obtain ⟨old, hOld, hEq⟩ := caller_of_moved hCaller hAddr hFirst
    obtain ⟨old', hOld', hEq'⟩ := caller_of_moved hCaller hAddr hSecond
    rw [hEq, hEq'] at hSame
    exact h.apart j k old old' hOld hOld' hSame

/-- An `Establish` for a client reaches the task of this client. -/
theorem Routed.served (h : Routed tr s) (hWf : s.channel.Wf) {e : VoiceServer.Event} {channel : VoiceChannel}
    {o : List VoiceServer.Output} (hStep : s.channel.step w.env e = some (channel, o))
    (hDistinct : channel.Distinct)
    (hOf : ∀ clientId addr draw, e = .control (.establish clientId addr) draw →
      ∃ c ∈ s.callers, c.addr = addr ∧ c.clientId = clientId) {o' : List Output}
    (hAsked : ∀ out ∈ o', ∃ clientId addr draw t, e = .control (.establish clientId addr) draw ∧
      out = .asked addr t ∧ ∃ ctl, channel.await = .control ctl t) :
    Routed (tr ++ o') (s.served channel o) := by
  have hEffect := VoiceChannel.step_effect hStep
  have hFinds {clientId : Uuid} {addr : SocketAddr} {draw : Draw} {k : UInt32} {conn : Conn}
      (hEvent : e = .control (.establish clientId addr) draw)
      (hClient : s.channel.forwarder.clientIdToSrcId[clientId]? = some k)
      (hConn : s.channel.forwarder.connections[k]? = some conn) : s.Reaches addr conn.tx := by
    obtain ⟨c, hMem, hAddr, rfl⟩ := hOf clientId addr draw hEvent
    obtain ⟨conn', d, hConn', hTask, hClientId⟩ := h.owned c.clientId k hClient
    cases hConn.symm.trans hConn'
    exact ⟨c, hMem, hAddr, d, hTask, hClientId⟩
  refine ⟨h.owned.step hWf hDistinct hEffect, ?_, ?_, h.senders, h.apart⟩
  · intro k conn addr hConn hAddr
    obtain ⟨old, hOld, hTx, hBefore⟩ := VoiceChannel.bound_before hEffect hConn hAddr
    rw [← hTx]
    rcases hBefore with hOldAddr | ⟨clientId, draw, hEvent, hClient⟩
    · exact (h.bound k old addr hOld hOldAddr).served hEffect.tasks o
    · exact (hFinds hEvent hClient hOld).served hEffect.tasks o
  · intro addr t hMem
    rcases List.mem_append.mp hMem with hOld | hNew
    · exact (h.asked addr t hOld).served hEffect.tasks o
    · obtain ⟨clientId, addr', draw, t', hEvent, hEq, ctl, hAwait⟩ := hAsked _ hNew
      cases hEq
      subst hEvent
      rcases VoiceChannel.control_await hStep hAwait with hWas | ⟨_, ⟨draw', hSame⟩, hFound, _⟩
      · obtain ⟨hEvent, _⟩ := VoiceChannel.select_eq_some_iff.mp hStep
        cases hEvent.symm.trans hWas
      · cases hSame
        obtain ⟨id, k, conn, hId, hClient, hConn, rfl⟩ := hFound.record
        cases hId
        rw [(hWf.records k conn hConn).ctl]
        exact (hFinds rfl hClient hConn).served hEffect.tasks o

theorem Routed.step (h : Routed tr s) (hSound : Sound w tr s) {e : Event} {o : List Output}
    (hEffect : Effect w s e s' o) (hDistinct : s'.channel.Distinct) : Routed (tr ++ o) s' := by
  cases hEffect with
  | joined addr clientId sourceId hNone =>
    rw [List.append_nil]
    exact h.joined hNone
  | moved i e c c' o hCaller hAllows hEffect =>
    obtain ⟨hAddr, hClientId, _⟩ := effect_same hEffect
    exact h.moved hCaller hAddr hClientId o
  | announced i draw c addr channel o hCaller hPhase hNew hStep =>
    obtain rfl := (hSound.known c (List.mem_of_getElem? hCaller)).discovered addr hPhase
    have hMoved : Routed tr (s.moved i { c with announced := true } []) := by
      simpa using h.moved hCaller (announced_addr c) (announced_clientId c) []
    refine hMoved.served hSound.wf hStep hDistinct ?_ ?_
    · intro clientId addr draw' hEvent
      cases hEvent
      exact ⟨_, List.mem_of_getElem? (getElem?_set_here hCaller), rfl, rfl⟩
    · intro out hMem
      obtain ⟨ctl, t, hAwait, rfl⟩ := mem_asked hMem
      exact ⟨c.clientId, c.addr, draw, t, rfl, rfl, ctl, hAwait⟩
  | served e channel o hAdmits hStep =>
    refine h.served hSound.wf hStep hDistinct ?_ (List.forall_mem_nil _)
    rintro clientId addr draw rfl
    cases hAdmits

theorem Routed.new (roomId : Uuid) (now : Nat) : Routed [] (new roomId now) where
  owned := VoiceChannel.new_owned roomId now
  bound _ _ _ hConn := by simp [Talk.new, VoiceChannel.new] at hConn
  asked _ _ hMem := by cases hMem
  senders _ _ hMem := by cases hMem
  apart _ _ _ _ hFound := by cases hFound

end Steps

end Talk

end Voices.Call
