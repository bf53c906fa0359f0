import Voices.VoiceServer.PortPool

/-!
# The numbers of the ports

`Ports::get` adds the index of a flag to the first port in 16 bits, and neither
`VoiceServerConfig` nor `Ports::new` checks that the last port of the range fits.
The sum wraps around in a release build; elsewhere the call panics and the flag
stays taken.
-/

namespace Voices.VoiceServer

open Semantics

/-- The port that `Channel::new` binds its socket to: the system chooses one for the port 0. -/
def boundPort (chosen : UInt16) (r : PortRef) : UInt16 := if r.port = 0 then chosen else r.port

/-- The port of a reference is the sum of its parts as integers, and a socket can be bound to it. -/
structure Numbered (p : Ports) (r : PortRef) : Prop where
  sum : r.port.toNat = p.start.toNat + r.taken
  nonzero : r.port ≠ 0
  bound : ∀ chosen, boundPort chosen r = r.port

variable {p : Ports} {picked : Option UInt16} {start limit : UInt16}

theorem boundPort_of_ne_zero {r : PortRef} (hNonzero : r.port ≠ 0) (chosen : UInt16) :
    boundPort chosen r = r.port := if_neg hNonzero

theorem numbered_ref_iff {i : Nat} (hStart : p.start ≠ 0) :
    Numbered p (p.ref i) ↔ p.start.toNat + i < 2 ^ 16 := by
  constructor
  · intro hNumbered
    have hSum : (p.ref i).port.toNat = p.start.toNat + i := hNumbered.sum
    rw [← hSum]
    exact UInt16.toNat_lt _
  · intro hLt
    have hSum := Pool.ref_port_toNat hLt
    have hNonzero : (p.ref i).port ≠ 0 := by
      intro hZero
      rw [hZero, UInt16.toNat_zero] at hSum
      exact hStart (UInt16.toNat_inj.mp (by rw [UInt16.toNat_zero]; omega))
    exact ⟨hSum, hNonzero, boundPort_of_ne_zero hNonzero⟩

/-- The system never picks the port 0. -/
theorem Ports.build_start (hBuild : Ports.build picked start limit = some p) (hPicked : picked ≠ some 0) :
    p.start ≠ 0 := by
  rw [Ports.build] at hBuild
  split at hBuild
  · obtain ⟨port, rfl, rfl⟩ := Option.map_eq_some_iff.mp hBuild
    exact fun hZero => hPicked (congrArg some hZero)
  · rename_i hStart
    cases hBuild
    exact hStart

namespace Pool

variable {s s' : Pool} {e : Event} {es : List Event} {o tr : List (Option PortRef)}

theorem mem_live_of_handed_out (h : step s e = some (s', o)) {r : PortRef} (hMem : some r ∈ o) :
    r ∈ s'.live := by
  cases e with
  | get =>
    simp only [step] at h
    split at h
    · cases h
      exact List.mem_append_right _ (List.mem_singleton.mpr (Option.some.inj (List.mem_singleton.mp hMem)))
    · cases h
      cases List.mem_singleton.mp hMem
  | start =>
    cases h
    cases hMem
  | swap j =>
    simp only [step] at h
    split at h
    · split at h
      · cases h
        exact List.mem_append_right _ (List.mem_singleton.mpr (Option.some.inj (List.mem_singleton.mp hMem)))
      · cases h
        cases hMem
      · cases h
        cases List.mem_singleton.mp hMem
    · cases h
  | drop k =>
    simp only [step] at h
    split at h
    · cases h
      cases hMem
    · cases h

/-- A call returns a reference to a flag of the pool. -/
theorem handed_out (hUntaken : ∀ i : Nat, p.state[i]? ≠ some false)
    (hRun : Machine.run step (new p) es = some (s, tr)) {r : PortRef} (hMem : some r ∈ tr) :
    r = p.ref r.taken ∧ r.taken < p.state.length := by
  have hAll := Machine.run_induction (P := fun s tr => Exclusive p s.ports s.live ∧
    ∀ r, some r ∈ tr → r = p.ref r.taken ∧ r.taken < p.state.length)
    ⟨Exclusive.new p hUntaken, fun r hMem => absurd hMem List.not_mem_nil⟩ ?_ hRun
  · exact hAll.2 r hMem
  · rintro s tr e s' o ⟨hExclusive, hRefs⟩ h
    have hNext := hExclusive.step h
    refine ⟨hNext, fun r hMem => ?_⟩
    obtain hOld | hNew := List.mem_append.mp hMem
    · exact hRefs r hOld
    · have hLive := mem_live_of_handed_out h hNew
      exact ⟨hNext.refs r hLive, hNext.lt_length hLive⟩

theorem get_next {k m : Nat} (start : UInt16) :
    Ports.get ⟨start, List.replicate k false ++ List.replicate (m + 1) true⟩ =
      some (⟨start, List.replicate (k + 1) false ++ List.replicate m true⟩, Ports.ref ⟨start, []⟩ k) := by
  have hFirst : (List.replicate k false ++ List.replicate (m + 1) true).findIdx? id = some k := by
    simp [List.findIdx?_append, List.replicate_succ, List.findIdx?_replicate, List.findIdx?_cons]
  have hSet : (List.replicate k false ++ List.replicate (m + 1) true).set k false =
      List.replicate (k + 1) false ++ List.replicate m true := by
    rw [List.set_append_right _ _ (by simp), List.length_replicate, Nat.sub_self, List.replicate_succ,
      List.set_cons_zero, List.replicate_succ', List.append_assoc, List.singleton_append]
  rw [Ports.get, hFirst, Option.map_some, hSet]
  rfl

/-- Calls one after the other, with no drops, take the flags in their order. -/
theorem run_gets (start : UInt16) (k m : Nat) :
    ∃ s tr, Machine.run step (new ⟨start, List.replicate (k + m) true⟩) (List.replicate k .get) = some (s, tr) ∧
      s.ports = ⟨start, List.replicate k false ++ List.replicate m true⟩ ∧
      ∀ i < k, some (Ports.ref ⟨start, []⟩ i) ∈ tr := by
  induction k generalizing m with
  | zero => exact ⟨_, _, rfl, by simp [new], fun i hLt => absurd hLt (Nat.not_lt_zero i)⟩
  | succ k ih =>
    obtain ⟨s, tr, hRun, hPorts, hRefs⟩ := ih (m + 1)
    have hStep : step s .get = some ({ s with
        ports := ⟨start, List.replicate (k + 1) false ++ List.replicate m true⟩
        live := s.live ++ [Ports.ref ⟨start, []⟩ k] }, [some (Ports.ref ⟨start, []⟩ k)]) := by
      rw [step, hPorts, get_next]
    rw [List.replicate_succ', Nat.succ_add_eq_add_succ]
    refine ⟨_, _, Machine.run_snoc_iff.mpr ⟨s, tr, _, hRun, hStep, rfl⟩, rfl, fun i hLt => ?_⟩
    obtain hEarlier | rfl := Nat.lt_succ_iff_lt_or_eq.mp hLt
    · exact List.mem_append_left _ (hRefs i hEarlier)
    · exact List.mem_append_right _ (List.mem_singleton_self _)

/-- Every port that any calls hand out, with drops between them, has the number that its flag
stands for, exactly if the range of the ports ends below 2^16. -/
theorem ports_numbered_iff (hBuild : Ports.build picked start limit = some p) (hPicked : picked ≠ some 0) :
    (∀ es s tr, Machine.run step (new p) es = some (s, tr) → ∀ r, some r ∈ tr → Numbered p r) ↔
      p.start.toNat + limit.toNat ≤ 2 ^ 16 := by
  have hStart := Ports.build_start hBuild hPicked
  have hLength := Ports.build_length hBuild
  constructor
  · intro hAll
    obtain ⟨s, tr, hRun, _, hRefs⟩ := run_gets p.start limit.toNat 0
    rw [Nat.add_zero, ← Ports.build_state hBuild] at hRun
    have hEach : ∀ i < limit.toNat, p.start.toNat + i < 2 ^ 16 := fun i hLt =>
      (numbered_ref_iff hStart).mp (hAll _ s tr hRun (p.ref i) (hRefs i hLt))
    have hFirst := UInt16.toNat_lt p.start
    cases hLimit : limit.toNat with
    | zero => omega
    | succ n =>
      have := hEach n (by omega)
      omega
  · intro hFits es s tr hRun r hMem
    obtain ⟨hRef, hLt⟩ := handed_out (Ports.build_untaken hBuild) hRun hMem
    rw [hRef]
    exact (numbered_ref_iff hStart).mpr (by omega)

theorem ports_numbered_iff_default :
    ∃ p, Ports.build none 33333 2 = some p ∧
      ((∀ es s tr, Machine.run step (new p) es = some (s, tr) → ∀ r, some r ∈ tr → Numbered p r) ↔
        p.start.toNat + (2 : UInt16).toNat ≤ 2 ^ 16) := by
  have hBuild : Ports.build none 33333 2 = some _ := rfl
  exact ⟨_, hBuild, ports_numbered_iff hBuild (by decide)⟩

/-- The second port after 65535 is 0. -/
theorem not_ports_numbered :
    ¬ ∀ (picked : Option UInt16) (start limit : UInt16) (p : Ports),
      Ports.build picked start limit = some p → picked ≠ some 0 →
        ∀ es s tr, Machine.run step (new p) es = some (s, tr) → ∀ r, some r ∈ tr → Numbered p r := by
  intro hAll
  have hNumbered := hAll none 65535 2 _ rfl (by decide) [.get, .get] _ _ rfl ⟨0, 1⟩ (by decide)
  exact hNumbered.nonzero rfl

end Pool

end Voices.VoiceServer
