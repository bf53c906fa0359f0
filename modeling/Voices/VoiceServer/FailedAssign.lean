import Voices.VoiceServer.PortReuse

/-!
# A failed assignment

A call of `assign_channel` that cannot bind its socket gives the port back, so
that the server is as if the call had not been made, whatever else went on in
the meantime.
-/

namespace Voices.VoiceServer.Server

open Semantics

variable {s s' t t' : Server} {e : Event} {es : List Event} {o tr : List Output} {id : Uuid} {k : Nat}

/-- The server `s` with a call under way that has the port with the flag `k`. -/
def reserve (s : Server) (id : Uuid) (k : Nat) (flags : List Bool) : Server :=
  { s with ports := { s.ports with state := flags }, constructing := some (id, s.ports.ref k) }

/-- Apart from the call, and from its flag, `t` is `s`. -/
inductive Reserving (id : Uuid) (k : Nat) (s : Server) : Server → Prop
  | intro (flags : List Bool) (hIdle : s.constructing = none) (hFlags : flags.set k true = s.ports.state) :
      Reserving id k s (s.reserve id k flags)

theorem Reserving.of_assign {port : PortRef} (h : step s (.assign id) = some (t, [.allocated port])) :
    ∃ k, Reserving id k s t := by
  cases step_effect h with
  | allocated _ ports _ hUnlocked hVacant hGet =>
    obtain ⟨k, hFree, rfl, rfl⟩ := Ports.get_eq_some hGet
    refine ⟨k, .intro _ hUnlocked ?_⟩
    rw [List.set_set]
    obtain ⟨hLt, hGet⟩ := List.getElem?_eq_some_iff.mp hFree
    rw [← hGet, List.set_getElem_self]

theorem Reserving.setRoom (h : Reserving id k s t) (i : Nat) (r : Room) :
    Reserving id k (s.setRoom i r) (t.setRoom i r) := by
  obtain ⟨flags, hIdle, hFlags⟩ := h
  exact .intro (s := s.setRoom i r) flags hIdle hFlags

theorem Reserving.handled_eq (h : Reserving id k s t) (i : Nat) (r : Room) :
    t.handled i r = s.handled i r := by
  obtain ⟨flags, hIdle, hFlags⟩ := h
  rfl

theorem Reserving.rooms_eq (h : Reserving id k s t) : t.rooms = s.rooms := by
  obtain ⟨flags, hIdle, hFlags⟩ := h
  rfl

/-- A port that is released meanwhile is released in both. -/
theorem Reserving.handleDropped (h : Reserving id k s t) (i : Nat) (r : Room) :
    Reserving id k (s.handleDropped i r) (t.handleDropped i r) := by
  unfold Server.handleDropped
  rw [h.handled_eq]
  split
  · exact h
  · obtain ⟨flags, hIdle, hFlags⟩ := h
    refine .intro (s := { s with ports := s.ports.release r.port }) (flags.set r.port.taken true) hIdle ?_
    show (flags.set r.port.taken true).set k true = s.ports.state.set r.port.taken true
    rw [← hFlags]
    by_cases hSame : r.port.taken = k
    · rw [hSame]
    · rw [List.set_comm _ _ hSame]

theorem Reserving.roomStep (hReserving : Reserving id k s t) {i : Nat} {enabled : Room → Bool}
    {next : Room → Room} (h : t.roomStep i enabled next = some (t', o)) :
    ∃ s', s.roomStep i enabled next = some (s', o) ∧ Reserving id k s' t' := by
  unfold Server.roomStep at h ⊢
  rw [hReserving.rooms_eq] at h
  split at h
  · rename_i r hRoom
    split at h
    · rename_i hEnabled
      cases h
      rw [if_pos hEnabled]
      exact ⟨_, rfl, hReserving.setRoom i (next r)⟩
    · cases h
  · cases h

theorem Reserving.locked (h : Reserving id k s t) (next : Option (Server × List Output)) :
    t.unlocked next = none := by
  obtain ⟨flags, hIdle, hFlags⟩ := h
  rfl

/-- While the call is under way the rest goes on as it does without the call. -/
theorem Reserving.step (hReserving : Reserving id k s t) (hOther : ∀ ok, e ≠ .constructed ok)
    (h : Server.step t e = some (t', o)) : ∃ s', Server.step s e = some (s', o) ∧ Reserving id k s' t' := by
  cases e with
  | assign other =>
    cases (hReserving.locked _).symm.trans h
  | constructed ok => exact absurd rfl (hOther ok)
  | get other =>
    cases (hReserving.locked _).symm.trans h
  | dropClone i =>
    simp only [Server.step] at h ⊢
    rw [hReserving.rooms_eq] at h
    split at h
    · rename_i r hRoom
      split at h
      · rename_i hClones
        cases h
        rw [if_pos hClones]
        exact ⟨_, rfl, (hReserving.setRoom _ _).handleDropped _ _⟩
      · cases h
    · cases h
  | opened i => exact hReserving.roomStep h
  | taskEnded i => exact hReserving.roomStep h
  | leave i =>
    obtain ⟨s', hStep, hNext⟩ := hReserving.roomStep h
    refine ⟨s', ?_, hNext⟩
    rw [← hStep]
    simp only [Server.step, hReserving.handled_eq]
  | notify i =>
    obtain ⟨flags, hIdle, hFlags⟩ := hReserving
    simp only [Server.step] at h ⊢
    split at h
    · rename_i r hRoom
      split at h
      · rename_i hEnabled
        cases h
        have hRoom' : s.rooms[i]? = some r := hRoom
        rw [hRoom']
        exact ⟨_, if_pos hEnabled, .intro (s := s.endNotify i r) flags hIdle hFlags⟩
      · cases h
    · cases h
  | finish i => exact hReserving.roomStep h
  | abort i => exact hReserving.roomStep h
  | receive =>
    obtain ⟨flags, hIdle, hFlags⟩ := hReserving
    simp only [Server.step] at h ⊢
    split at h
    · rename_i n rest hRemoving hQueue
      cases h
      have hRemoving' : s.removing = none := hRemoving
      have hQueue' : s.notifications = n :: rest := hQueue
      rw [hRemoving', hQueue']
      exact ⟨_, rfl, .intro (s := { s with notifications := rest, removing := some n }) flags hIdle hFlags⟩
    · cases h
  | remove =>
    simp only [Server.step] at h
    split at h
    · cases (hReserving.locked _).symm.trans h
    · cases h

theorem Reserving.run (hReserving : Reserving id k s t) (hOther : ∀ e ∈ es, ∀ ok, e ≠ .constructed ok)
    (hRun : Machine.run Server.step t es = some (t', tr)) :
    ∃ s', Machine.run Server.step s es = some (s', tr) ∧ Reserving id k s' t' := by
  induction es generalizing s t tr with
  | nil =>
    cases hRun
    exact ⟨s, rfl, hReserving⟩
  | cons e es ih =>
    obtain ⟨t₁, o, tr₁, hStep, hRest, rfl⟩ := Machine.run_cons_iff.mp hRun
    rw [List.forall_mem_cons] at hOther
    obtain ⟨s₁, hFirst, hNext⟩ := hReserving.step hOther.1 hStep
    obtain ⟨s', hLast, hEnd⟩ := ih hNext hOther.2 hRest
    exact ⟨s', Machine.run_cons_iff.mpr ⟨s₁, o, tr₁, hFirst, hLast, rfl⟩, hEnd⟩

theorem Reserving.failed (hReserving : Reserving id k s t)
    (h : Server.step t (.constructed false) = some (t', o)) : t' = s ∧ o = [.assigned id none] := by
  obtain ⟨flags, hIdle, hFlags⟩ := hReserving
  cases h
  refine ⟨?_, rfl⟩
  show { s with ports := { s.ports with state := flags.set k true }, constructing := none } = s
  rw [hFlags, ← hIdle]

/-- A call of `assign_channel` that fails at once leaves the server as it is. One that fails when
it binds the socket leads, with all that went on before, to the server that the rest alone leads to,
with the outputs of the rest. -/
theorem failed_assign_changes_nothing (s : Server) (id : Uuid) :
    (∀ s', step s (.assign id) = some (s', [.assigned id none]) → s' = s) ∧
      ∀ t port es t₁ tr t₂ o, step s (.assign id) = some (t, [.allocated port]) →
        (∀ e ∈ es, ∀ ok, e ≠ .constructed ok) → Machine.run step t es = some (t₁, tr) →
        step t₁ (.constructed false) = some (t₂, o) →
        o = [.assigned id none] ∧ Machine.run step s es = some (t₂, tr) := by
  constructor
  · intro s' h
    have hEffect := step_effect h
    generalize hOutput : ([.assigned id none] : List Output) = o at hEffect
    cases hEffect with
    | exhausted => rfl
    | _ => cases hOutput
  · intro t port es t₁ tr t₂ o hAssign hOther hRun hFailed
    obtain ⟨k, hReserving⟩ := Reserving.of_assign hAssign
    obtain ⟨s', hRest, hEnd⟩ := hReserving.run hOther hRun
    obtain ⟨rfl, rfl⟩ := hEnd.failed hFailed
    exact ⟨rfl, hRest⟩

/-- The socket of channel 8 cannot be bound, while the forwarder of channel 7 ends. -/
theorem failed_assign_changes_nothing_ending :
    ∃ s tr₀ t port t₁ tr t₂ o,
      Machine.run step (Server.new (Ports.new 33330 2)) [.assign 7, .constructed true] = some (s, tr₀) ∧
      step s (.assign 8) = some (t, [.allocated port]) ∧
      Machine.run step t [.dropClone 0, .leave 0, .notify 0, .receive, .finish 0] = some (t₁, tr) ∧
      step t₁ (.constructed false) = some (t₂, o) ∧ o = [.assigned 8 none] ∧
      Machine.run step s [.dropClone 0, .leave 0, .notify 0, .receive, .finish 0] = some (t₂, tr) := by
  have hBefore : Machine.run step (Server.new (Ports.new 33330 2)) [.assign 7, .constructed true] =
      some (_, _) := rfl
  refine ⟨_, _, _, _, _, _, _, _, hBefore, rfl, rfl, rfl, ?_⟩
  exact (failed_assign_changes_nothing _ 8).2 _ _ _ _ _ _ _ rfl (by decide) rfl rfl

end Voices.VoiceServer.Server
