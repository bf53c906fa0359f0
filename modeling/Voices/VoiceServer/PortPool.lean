import Mathlib.Data.List.InsertIdx
import Mathlib.Data.List.Nodup
import Mathlib.Order.Bounds.Basic
import Mathlib.Order.Interval.Set.Defs
import Voices.VoiceServer.PortReuse

/-!
# The pool of ports

Any number of calls of `Ports::get` look through the flags one after the other,
while references are dropped. A call may also do so in one go.
-/

namespace Voices.VoiceServer

open Semantics

/-- `Ports::new`; for the start 0 it asks the system, which may fail, for a port that is free. -/
def Ports.build (picked : Option UInt16) (start limit : UInt16) : Option Ports :=
  if start = 0 then picked.map fun port => .new port limit else some (.new start limit)

variable {p : Ports} {picked : Option UInt16} {start limit : UInt16}

theorem Ports.build_state (hBuild : Ports.build picked start limit = some p) :
    p.state = List.replicate limit.toNat true := by
  rw [Ports.build] at hBuild
  split at hBuild
  · obtain ⟨port, _, rfl⟩ := Option.map_eq_some_iff.mp hBuild
    rfl
  · cases hBuild
    rfl

theorem Ports.build_length (hBuild : Ports.build picked start limit = some p) :
    p.state.length = limit.toNat := by
  rw [Ports.build_state hBuild, List.length_replicate]

theorem Ports.build_untaken (hBuild : Ports.build picked start limit = some p) (i : Nat) :
    p.state[i]? ≠ some false := by
  intro hTaken
  rw [Ports.build_state hBuild] at hTaken
  cases List.eq_of_mem_replicate (List.mem_of_getElem? hTaken)

/-- `live` are the references that are not dropped, `scans` the flags that calls of `get` look at next. -/
structure Pool where
  ports : Ports
  live : List PortRef
  scans : List Nat

namespace Pool

/-- `get` is a call that meets no other; `start` and `swap` are a call flag by flag. -/
inductive Event where
  | get
  | start
  | swap (scan : Nat)
  | drop (ref : Nat)
  deriving DecidableEq

def new (p : Ports) : Pool := { ports := p, live := [], scans := [] }

/-- The output is what a call of `get` returns. -/
def step (s : Pool) : Event → Option (Pool × List (Option PortRef))
  | .get =>
    match s.ports.get with
    | some (ports, r) => some ({ s with ports, live := s.live ++ [r] }, [some r])
    | none => some (s, [none])
  | .start => some ({ s with scans := s.scans ++ [0] }, [])
  | .swap j =>
    match s.scans[j]? with
    | some i =>
      match s.ports.state[i]? with
      | some true =>
        some ({ ports := { s.ports with state := s.ports.state.set i false },
                live := s.live ++ [s.ports.ref i], scans := s.scans.eraseIdx j }, [some (s.ports.ref i)])
      | some false => some ({ s with scans := s.scans.set j (i + 1) }, [])
      | none => some ({ s with scans := s.scans.eraseIdx j }, [none])
    | none => none
  | .drop k =>
    match s.live[k]? with
    | some r => some ({ s with ports := s.ports.release r, live := s.live.eraseIdx k }, [])
    | none => none

/-- The flags of `ports`, made as `p`, and the references `live` agree. -/
structure Exclusive (p ports : Ports) (live : List PortRef) : Prop where
  start : ports.start = p.start
  length : ports.state.length = p.state.length
  refs : ∀ r ∈ live, r = p.ref r.taken
  nodup : (live.map PortRef.taken).Nodup
  flags : ∀ i : Nat, ports.state[i]? = some false ↔ i ∈ live.map PortRef.taken

variable {s s' : Pool} {e : Event} {o : List (Option PortRef)}

/-- What a step does with the flags and the references. -/
inductive Effect (s : Pool) : List (Option PortRef) → Ports → List PortRef → Prop
  | scanned (o : List (Option PortRef)) : Effect s o s.ports s.live
  | taken (i : Nat) (hFree : s.ports.state[i]? = some true) :
      Effect s [some (s.ports.ref i)] { s.ports with state := s.ports.state.set i false }
        (s.live ++ [s.ports.ref i])
  | dropped (k : Nat) (r : PortRef) (hLive : s.live[k]? = some r) :
      Effect s [] (s.ports.release r) (s.live.eraseIdx k)

theorem step_effect (h : step s e = some (s', o)) : Effect s o s'.ports s'.live := by
  cases e with
  | get =>
    simp only [step] at h
    split at h
    · rename_i ports r hGet
      cases h
      obtain ⟨i, hFree, rfl, rfl⟩ := Ports.get_eq_some hGet
      exact .taken i hFree
    · cases h
      exact .scanned _
  | start =>
    cases h
    exact .scanned _
  | swap j =>
    simp only [step] at h
    split at h
    · rename_i i hScan
      split at h
      · rename_i hFree
        cases h
        exact .taken i hFree
      · cases h
        exact .scanned _
      · cases h
        exact .scanned _
    · cases h
  | drop k =>
    simp only [step] at h
    split at h
    · rename_i r hLive
      cases h
      exact .dropped k r hLive
    · cases h

theorem Exclusive.new (p : Ports) (hFree : ∀ i : Nat, p.state[i]? ≠ some false) :
    Exclusive p p [] where
  start := rfl
  length := rfl
  refs _ hMem := absurd hMem List.not_mem_nil
  nodup := List.nodup_nil
  flags i := ⟨fun hTaken => absurd hTaken (hFree i), fun hMem => absurd hMem List.not_mem_nil⟩

variable {ports : Ports} {live : List PortRef}

theorem Exclusive.take (hExclusive : Exclusive p ports live) {i : Nat}
    (hFree : ports.state[i]? = some true) :
    Exclusive p { ports with state := ports.state.set i false } (live ++ [ports.ref i]) := by
  have hRef : ports.ref i = p.ref i := by rw [Ports.ref, Ports.ref, hExclusive.start]
  have hNew : i ∉ live.map PortRef.taken := by
    intro hMem
    cases hFree.symm.trans ((hExclusive.flags i).mpr hMem)
  have hTaken : (live ++ [ports.ref i]).map PortRef.taken = live.map PortRef.taken ++ [i] := by
    rw [List.map_append, List.map_singleton, Ports.ref]
  refine ⟨hExclusive.start, ?_, ?_, ?_, ?_⟩
  · rw [List.length_set]
    exact hExclusive.length
  · intro r hMem
    obtain hOld | hOwn := List.mem_append.mp hMem
    · exact hExclusive.refs r hOld
    · rw [List.mem_singleton.mp hOwn]
      exact hRef
  · rw [hTaken, List.nodup_append]
    refine ⟨hExclusive.nodup, List.pairwise_singleton _ _, fun a hOld b hOwn hEq => ?_⟩
    rw [hEq, List.mem_singleton.mp hOwn] at hOld
    exact hNew hOld
  · intro k
    rw [getElem?_set_iff hFree, hTaken, List.mem_append, List.mem_singleton, ← hExclusive.flags k]
    grind

theorem Exclusive.release (hExclusive : Exclusive p ports live) {k : Nat} {r : PortRef}
    (hLive : live[k]? = some r) : Exclusive p (ports.release r) (live.eraseIdx k) := by
  have hTaken : (live.map PortRef.taken)[k]? = some r.taken := by
    rw [List.getElem?_map, hLive, Option.map_some]
  obtain ⟨hLt, hGet⟩ := List.getElem?_eq_some_iff.mp hTaken
  have hFlag : ports.state[r.taken]? = some false :=
    (hExclusive.flags r.taken).mpr (List.mem_of_getElem? hTaken)
  have hErase : (live.eraseIdx k).map PortRef.taken = (live.map PortRef.taken).erase r.taken := by
    rw [← List.eraseIdx_map, ← hGet, hExclusive.nodup.erase_getElem]
  refine ⟨hExclusive.start, ?_, ?_, ?_, ?_⟩
  · rw [Ports.release, List.length_set]
    exact hExclusive.length
  · exact fun q hMem => hExclusive.refs q ((List.eraseIdx_sublist _ _).subset hMem)
  · rw [hErase]
    exact hExclusive.nodup.erase _
  · intro i
    rw [Ports.release, getElem?_set_iff hFlag, hErase, hExclusive.nodup.mem_erase_iff,
      ← hExclusive.flags i]
    grind

theorem Exclusive.step (hExclusive : Exclusive p s.ports s.live) (h : step s e = some (s', o)) :
    Exclusive p s'.ports s'.live := by
  have hEffect := step_effect h
  generalize s'.ports = ports, s'.live = live at hEffect ⊢
  cases hEffect with
  | scanned => exact hExclusive
  | taken i hFree => exact hExclusive.take hFree
  | dropped k r hLive => exact hExclusive.release hLive

theorem Exclusive.of_run {es : List Event} {tr : List (Option PortRef)}
    (hFree : ∀ i : Nat, p.state[i]? ≠ some false) (hRun : Machine.run Pool.step (Pool.new p) es = some (s, tr)) :
    Exclusive p s.ports s.live :=
  Machine.run_invariant (I := fun s => Exclusive p s.ports s.live) (Exclusive.new p hFree)
    (fun _ _ _ _ hExclusive h => hExclusive.step h) hRun

/-! ### Port numbers -/

theorem ref_port_toNat {i : Nat} (hLt : p.start.toNat + i < 2 ^ 16) :
    (p.ref i).port.toNat = p.start.toNat + i := by
  simp only [Ports.ref, UInt16.toNat_add, Nat.toUInt16_eq, UInt16.toNat_ofNat']
  omega

def inRange (p : Ports) : Set Nat := Set.Ico p.start.toNat (p.start.toNat + p.state.length)

/-- The ports without a reference. -/
def freePorts (p : Ports) (live : List PortRef) : Set Nat :=
  { n ∈ inRange p | ∀ r ∈ live, r.port.toNat ≠ n }

theorem Exclusive.lt_length (hExclusive : Exclusive p ports live) {r : PortRef} (hMem : r ∈ live) :
    r.taken < p.state.length := by
  have hFlag := (hExclusive.flags r.taken).mpr (List.mem_map_of_mem hMem)
  rw [← hExclusive.length]
  exact (List.getElem?_eq_some_iff.mp hFlag).1

theorem Exclusive.port_toNat (hExclusive : Exclusive p ports live)
    (hFits : p.start.toNat + p.state.length ≤ 2 ^ 16) {r : PortRef} (hMem : r ∈ live) :
    r.port.toNat = p.start.toNat + r.taken := by
  have hLt := hExclusive.lt_length hMem
  have hRef : r.port = (p.ref r.taken).port := congrArg PortRef.port (hExclusive.refs r hMem)
  rw [hRef, ref_port_toNat (by omega)]

theorem Exclusive.mem_freePorts_iff (hExclusive : Exclusive p ports live)
    (hFits : p.start.toNat + p.state.length ≤ 2 ^ 16) {i : Nat} (hLt : i < p.state.length) :
    p.start.toNat + i ∈ freePorts p live ↔ ports.state[i]? = some true := by
  have hTaken : (∀ r ∈ live, r.port.toNat ≠ p.start.toNat + i) ↔ i ∉ live.map PortRef.taken := by
    rw [List.mem_map, not_exists]
    refine forall_congr' fun r => ?_
    rw [not_and]
    refine forall_congr' fun hMem => ?_
    rw [hExclusive.port_toNat hFits hMem, Ne, Nat.add_left_cancel_iff]
  have hIndex : i < ports.state.length := hExclusive.length ▸ hLt
  have hFlag : ports.state[i]? = some ports.state[i] := List.getElem?_eq_getElem hIndex
  have hRange : p.start.toNat + i ∈ inRange p := ⟨Nat.le_add_right _ _, Nat.add_lt_add_left hLt _⟩
  rw [freePorts, Set.mem_sep_iff, and_iff_right hRange, hTaken, ← hExclusive.flags i, hFlag]
  cases ports.state[i] <;> simp

/-- A call finds the lowest free port, or none when there is none. -/
theorem Exclusive.get (hExclusive : Exclusive p ports live)
    (hFits : p.start.toNat + p.state.length ≤ 2 ^ 16) :
    (∀ ports' r, ports.get = some (ports', r) → IsLeast (freePorts p live) r.port.toNat) ∧
      (ports.get = none ↔ freePorts p live = ∅) := by
  have hMem {i : Nat} (hLt : i < p.state.length) := hExclusive.mem_freePorts_iff hFits hLt
  have hFree {n : Nat} (hPort : n ∈ freePorts p live) :
      ∃ i, n = p.start.toNat + i ∧ ports.state[i]? = some true := by
    have hLt : n - p.start.toNat < p.state.length := by
      have := hPort.1.2
      have := hPort.1.1
      omega
    have hEq : n = p.start.toNat + (n - p.start.toNat) := (Nat.add_sub_cancel' hPort.1.1).symm
    exact ⟨_, hEq, (hMem hLt).mp (hEq ▸ hPort)⟩
  constructor
  · intro ports' r hGet
    obtain ⟨k, hFind, hEq⟩ := Option.map_eq_some_iff.mp hGet
    cases hEq
    obtain ⟨hLt, hFlag, hBefore⟩ := List.findIdx?_eq_some_iff_getElem.mp hFind
    have hIndex : k < p.state.length := hExclusive.length ▸ hLt
    have hPort : (ports.ref k).port.toNat = p.start.toNat + k := by
      rw [Ports.ref, hExclusive.start]
      exact ref_port_toNat (by omega)
    rw [hPort]
    refine ⟨(hMem hIndex).mpr (List.getElem?_eq_some_iff.mpr ⟨hLt, hFlag⟩), fun n hOther => ?_⟩
    obtain ⟨i, rfl, hOpen⟩ := hFree hOther
    refine Nat.add_le_add_left (Nat.le_of_not_lt fun hLess => ?_) _
    exact hBefore i hLess (List.getElem?_eq_some_iff.mp hOpen).2
  · rw [Ports.get, Option.map_eq_none_iff, List.findIdx?_eq_none_iff, Set.eq_empty_iff_forall_notMem]
    constructor
    · intro hNone n hPort
      obtain ⟨i, _, hOpen⟩ := hFree hPort
      cases hNone true (List.mem_of_getElem? hOpen)
    · intro hEmpty flag hFlag
      obtain ⟨i, hLt, rfl⟩ := List.mem_iff_getElem.mp hFlag
      rw [id, ← Bool.not_eq_true]
      intro hOpen
      exact hEmpty _ ((hMem (hExclusive.length ▸ hLt)).mpr (List.getElem?_eq_some_iff.mpr ⟨hLt, hOpen⟩))

/-! ### One call flag by flag -/

/-- A call that nothing interrupts looks on from flag `i`, with the flags before it taken. -/
theorem run_scan (s : Pool) {i : Nat} (hBefore : ∀ j < i, s.ports.state[j]? = some false) :
    ∃ n, Machine.run step { s with scans := s.scans ++ [i] }
      (List.replicate n (.swap s.scans.length)) = step s .get := by
  have hDone (i : Nat) : (s.scans ++ [i]).eraseIdx s.scans.length = s.scans := by
    rw [List.eraseIdx_append_of_length_le (Nat.le_refl _), Nat.sub_self]
    exact List.append_nil _
  induction hLeft : s.ports.state.length - i generalizing i with
  | zero =>
    have hNone : s.ports.get = none := by
      rw [Ports.get, Option.map_eq_none_iff, List.findIdx?_eq_none_iff]
      intro flag hFlag
      obtain ⟨j, hLt, rfl⟩ := List.mem_iff_getElem.mp hFlag
      exact (List.getElem?_eq_some_iff.mp (hBefore j (by omega))).2
    have hEnd : s.ports.state[i]? = none := List.getElem?_eq_none (by omega)
    exact ⟨1, by simp [Machine.run, step, hDone, hEnd, hNone]⟩
  | succ m ih =>
    have hLt : i < s.ports.state.length := by omega
    cases hFlag : s.ports.state[i] with
    | true =>
      have hGet : s.ports.get = some ({ s.ports with state := s.ports.state.set i false }, s.ports.ref i) := by
        rw [Ports.get, List.findIdx?_eq_some_iff_getElem.mpr ⟨hLt, hFlag, ?_⟩, Option.map_some]
        intro j hLess hOpen
        cases hOpen.symm.trans (List.getElem?_eq_some_iff.mp (hBefore j hLess)).2
      have hOpen : s.ports.state[i]? = some true := List.getElem?_eq_some_iff.mpr ⟨hLt, hFlag⟩
      exact ⟨1, by simp [Machine.run, step, hDone, hOpen, hGet]⟩
    | false =>
      have hTaken : s.ports.state[i]? = some false := List.getElem?_eq_some_iff.mpr ⟨hLt, hFlag⟩
      have hNext : ∀ j < i + 1, s.ports.state[j]? = some false := by
        intro j hLess
        obtain hEarlier | hEq := Nat.lt_succ_iff_lt_or_eq.mp hLess
        · exact hBefore j hEarlier
        · exact hEq ▸ hTaken
      obtain ⟨n, hRun⟩ := ih hNext (by omega)
      refine ⟨n + 1, ?_⟩
      rw [List.replicate_succ, ← hRun]
      simp [Machine.run, step, hTaken]

/-- What a call does in one go is what it does flag by flag when nothing comes between. -/
theorem get_eq_scan (s : Pool) :
    ∃ n, Machine.run step s (.start :: List.replicate n (.swap s.scans.length)) = step s .get := by
  obtain ⟨n, hRun⟩ := run_scan s (i := 0) fun j hLess => absurd hLess (Nat.not_lt_zero j)
  refine ⟨n, ?_⟩
  rw [← hRun]
  simp [Machine.run, step]

/-- The ports of the references are distinct and in range, a flag is false exactly while a
reference with it is alive, and a call returns the lowest free port if there is one; this for any
calls and drops before, whole or flag by flag. -/
theorem ports_exclusive {picked : Option UInt16} {start limit : UInt16} {es : List Event}
    {tr : List (Option PortRef)} (hBuild : Ports.build picked start limit = some p)
    (hFits : p.start.toNat + limit.toNat ≤ 2 ^ 16)
    (hRun : Machine.run step (new p) es = some (s, tr)) :
    (s.live.map PortRef.port).Nodup ∧
      (∀ r ∈ s.live, r.port.toNat ∈ Set.Ico p.start.toNat (p.start.toNat + limit.toNat)) ∧
      (∀ i, s.ports.state[i]? = some false ↔ ∃ r ∈ s.live, r.taken = i) ∧
      ∀ s' r, step s .get = some (s', [r]) →
        (∀ q, r = some q → s'.live = s.live ++ [q] ∧ IsLeast (freePorts p s.live) q.port.toNat) ∧
          (r = none ↔ freePorts p s.live = ∅) := by
  have hLength := Ports.build_length hBuild
  have hExclusive := Exclusive.of_run (Ports.build_untaken hBuild) hRun
  have hFits' : p.start.toNat + p.state.length ≤ 2 ^ 16 := hLength ▸ hFits
  refine ⟨?_, ?_, ?_, ?_⟩
  · rw [List.Nodup, List.pairwise_map]
    refine (List.pairwise_map.mp hExclusive.nodup).imp_of_mem fun hMem hOther hNe hPort => ?_
    have hNat := congrArg UInt16.toNat hPort
    rw [hExclusive.port_toNat hFits' hMem, hExclusive.port_toNat hFits' hOther] at hNat
    exact hNe (Nat.add_left_cancel hNat)
  · intro r hMem
    rw [hExclusive.port_toNat hFits' hMem, ← hLength]
    exact ⟨Nat.le_add_right _ _, Nat.add_lt_add_left (hExclusive.lt_length hMem) _⟩
  · exact fun i => (hExclusive.flags i).trans List.mem_map
  · intro s' r h
    obtain ⟨hLeast, hNone⟩ := hExclusive.get hFits'
    rw [step] at h
    split at h
    · rename_i ports r hGet
      cases h
      refine ⟨fun q hEq => ?_, ?_⟩
      · cases hEq
        exact ⟨rfl, hLeast ports r hGet⟩
      · rw [← hNone, hGet]
        simp
    · rename_i hGet
      cases h
      refine ⟨fun q hEq => ?_, ?_⟩
      · cases hEq
      · rw [← hNone, hGet]
        simp

/-- Two calls look at the first flag in turn while a third has gone past it, and a reference is dropped. -/
def crossed : List Event :=
  [.get, .start, .start, .swap 0, .swap 1, .drop 0, .swap 1, .start, .swap 1, .swap 0]

theorem ports_exclusive_crossed :
    ∃ p s tr, Ports.build (some 40000) 0 3 = some p ∧ Machine.run step (new p) crossed = some (s, tr) ∧
      (s.live.map PortRef.port).Nodup ∧
      (∀ r ∈ s.live, r.port.toNat ∈ Set.Ico p.start.toNat (p.start.toNat + (3 : UInt16).toNat)) ∧
      (∀ i, s.ports.state[i]? = some false ↔ ∃ r ∈ s.live, r.taken = i) ∧
      ∀ s' r, step s .get = some (s', [r]) →
        (∀ q, r = some q → s'.live = s.live ++ [q] ∧ IsLeast (freePorts p s.live) q.port.toNat) ∧
          (r = none ↔ freePorts p s.live = ∅) := by
  have hBuild : Ports.build (some 40000) 0 3 = some (.new 40000 3) := rfl
  have hRun : Machine.run step (new (.new 40000 3)) crossed = some (_, _) := rfl
  exact ⟨_, _, _, hBuild, hRun, ports_exclusive hBuild (by decide) hRun⟩

end Pool

end Voices.VoiceServer
