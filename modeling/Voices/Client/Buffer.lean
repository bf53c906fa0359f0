import Mathlib.Data.Multiset.AddSub
import Voices.Client.Play

/-!
# What the playout buffer takes in and hands out

`BinaryHeap` promises to hand out an element of the least order, but not which
one of several. The calls are therefore given here as a relation that allows
each choice, of which the sorted list of `State` makes one.
-/

namespace Voices.Client.Play

open Semantics
open scoped List

inductive Call where
  | tick (voice : Voice)
  | pop

def Call.packets : Call → List Voice
  | .tick voice => [voice]
  | .pop => []

/-- The heap `queue` hands out `v` and keeps `rest`. -/
structure HandsOut (queue : List Voice) (v : Voice) (rest : List Voice) : Prop where
  perm : queue.Perm (v :: rest)
  least : ∀ w ∈ rest, v.sequence ≤ w.sequence

inductive Pops (s : State) : State → Option Voice → Prop
  | packet {v : Voice} {rest : List Voice} (hOut : HandsOut s.queue v rest) :
      Pops s { queue := rest, nextExpected := v.sequence + 1 } (some v)
  | empty (hEmpty : s.queue = []) : Pops s { s with nextExpected := s.nextExpected + 1 } none

inductive Pushes (s : State) (voice : Voice) : State → Prop
  | intro {queue : List Voice} (hPerm : queue.Perm (voice :: s.queue)) :
      Pushes s voice { s with queue }

inductive Ticks (s : State) (voice : Voice) : State → Option Voice → Prop
  | full {s₁ s₂ : State} {o : Option Voice} (hFull : 3 ≤ s.queue.length) (hPop : Pops s s₁ o)
      (hPush : Pushes s₁ voice s₂) : Ticks s voice s₂ o
  | ready (hShort : s.queue.length < 3) (hReady : voice.sequence = s.nextExpected) :
      Ticks s voice { s with nextExpected := voice.sequence + 1 } (some voice)
  | early {s₁ : State} (hShort : s.queue.length < 3) (hEarly : voice.sequence ≠ s.nextExpected)
      (hPush : Pushes s voice s₁) : Ticks s voice s₁ none

inductive Returns (s : State) : Call → State → Option Voice → Prop
  | pop {s' : State} {o : Option Voice} (hPop : Pops s s' o) : Returns s .pop s' o
  | tick {voice : Voice} {s' : State} {o : Option Voice} (hTick : Ticks s voice s' o) :
      Returns s (.tick voice) s' o

/-- The calls `cs` lead from a fresh state to `s` and return the packets `out`.
Additions wrap; where they are checked, a call that overflows does not return,
and the runs that are left are among these. -/
inductive Calls : List Call → State → List Voice → Prop
  | nil : Calls [] .new []
  | snoc {cs : List Call} {s s' : State} {out : List Voice} {c : Call} {o : Option Voice}
      (hCalls : Calls cs s out) (hReturns : Returns s c s' o) :
      Calls (cs ++ [c]) s' (out ++ o.toList)

def State.call (s : State) : Call → Option (State × List (Option Voice))
  | .tick voice => some ((s.tick voice).1, [(s.tick voice).2])
  | .pop => some (s.pop.1, [s.pop.2])

def emitted (tr : List (Option Voice)) : List Voice := tr.flatMap Option.toList

def ticked (cs : List Call) : List Voice := cs.flatMap Call.packets

@[simp] theorem emitted_append (tr tr' : List (Option Voice)) :
    emitted (tr ++ tr') = emitted tr ++ emitted tr' :=
  List.flatMap_append

@[simp] theorem ticked_append (cs cs' : List Call) : ticked (cs ++ cs') = ticked cs ++ ticked cs' :=
  List.flatMap_append

@[simp] theorem emitted_singleton (o : Option Voice) : emitted [o] = o.toList :=
  List.flatMap_singleton _ _

@[simp] theorem ticked_singleton (c : Call) : ticked [c] = c.packets :=
  List.flatMap_singleton _ _

/-- What a pop returns and leaves is what was there, and only an empty heap returns nothing. -/
theorem Pops.conserves {s s' : State} {o : Option Voice} (h : Pops s s' o) :
    s.queue.Perm (o.toList ++ s'.queue) ∧ (o = none → s.queue = []) := by
  cases h with
  | packet hOut => exact ⟨hOut.perm, fun hNone => by cases hNone⟩
  | empty hEmpty => exact ⟨List.Perm.refl _, fun _ => hEmpty⟩

theorem Pushes.perm {s s' : State} {voice : Voice} (h : Pushes s voice s') :
    s'.queue.Perm (voice :: s.queue) := by
  cases h with
  | intro hPerm => exact hPerm

theorem Ticks.conserves {s s' : State} {voice : Voice} {o : Option Voice} (h : Ticks s voice s' o) :
    (voice :: s.queue).Perm (o.toList ++ s'.queue) := by
  cases h with
  | ready hShort hReady => exact List.Perm.refl _
  | early hShort hEarly hPush => exact hPush.perm.symm
  | full hFull hPop hPush =>
    calc voice :: s.queue
      _ ~ voice :: (o.toList ++ _) := hPop.conserves.1.cons voice
      _ ~ o.toList ++ voice :: _ := List.perm_middle.symm
      _ ~ o.toList ++ s'.queue := hPush.perm.symm.append_left _

/-- A full heap is sure to return a packet, so that the one that comes in takes its place. -/
theorem Ticks.length_le {s s' : State} {voice : Voice} {o : Option Voice} (h : Ticks s voice s' o)
    (hSmall : s.queue.length ≤ 3) : s'.queue.length ≤ 3 := by
  cases h with
  | ready hShort hReady => exact hSmall
  | early hShort hEarly hPush =>
    rw [hPush.perm.length_eq]
    exact hShort
  | @full s₁ _ _ hFull hPop hPush =>
    obtain ⟨hPerm, hNone⟩ := hPop.conserves
    have hLength := hPerm.length_eq
    rw [hPush.perm.length_eq, List.length_cons]
    cases o with
    | none =>
      rw [hNone rfl] at hFull
      exact absurd hFull (by decide)
    | some v =>
      rw [List.length_append, Option.toList_some, List.length_singleton] at hLength
      omega

theorem Pops.length_le {s s' : State} {o : Option Voice} (h : Pops s s' o) :
    s'.queue.length ≤ s.queue.length := by
  have hLength := h.conserves.1.length_eq
  rw [List.length_append] at hLength
  omega

theorem Returns.conserves {s s' : State} {c : Call} {o : Option Voice} (h : Returns s c s' o) :
    (c.packets ++ s.queue).Perm (o.toList ++ s'.queue) := by
  cases h with
  | pop hPop => exact hPop.conserves.1
  | tick hTick => exact hTick.conserves

theorem Returns.length_le {s s' : State} {c : Call} {o : Option Voice} (h : Returns s c s' o)
    (hSmall : s.queue.length ≤ 3) : s'.queue.length ≤ 3 := by
  cases h with
  | pop hPop => exact Nat.le_trans hPop.length_le hSmall
  | tick hTick => exact hTick.length_le hSmall

theorem Calls.perm {cs : List Call} {s : State} {out : List Voice} (h : Calls cs s out) :
    (out ++ s.queue).Perm (ticked cs) := by
  induction h with
  | nil => exact List.Perm.refl _
  | @snoc cs s s' out c o hCalls hReturns ih =>
    calc out ++ o.toList ++ s'.queue
      _ ~ out ++ (c.packets ++ s.queue) := by
        rw [List.append_assoc]
        exact hReturns.conserves.symm.append_left out
      _ ~ out ++ s.queue ++ c.packets := by
        rw [List.append_assoc]
        exact List.perm_append_comm.append_left out
      _ ~ ticked (cs ++ [c]) := by
        rw [ticked_append, ticked_singleton]
        exact ih.append_right _

theorem Calls.length_le {cs : List Call} {s : State} {out : List Voice} (h : Calls cs s out) :
    s.queue.length ≤ 3 := by
  induction h with
  | nil => exact Nat.zero_le _
  | snoc hCalls hReturns ih => exact hReturns.length_le ih

/-! ### The sorted list makes one of the choices -/

def State.Sorted (s : State) : Prop := s.queue.Pairwise fun v w => v.sequence ≤ w.sequence

theorem State.pushes_push (s : State) (voice : Voice) : Pushes s voice (s.push voice) :=
  .intro (List.perm_orderedInsert _ _ _)

theorem State.Sorted.push {s : State} (hSorted : s.Sorted) (voice : Voice) : (s.push voice).Sorted := by
  have : Std.Total fun v w : Voice => v.sequence ≤ w.sequence := ⟨fun v w => UInt64.le_total _ _⟩
  have : IsTrans Voice fun v w => v.sequence ≤ w.sequence := ⟨fun u v w => UInt64.le_trans⟩
  exact List.Pairwise.orderedInsert voice s.queue hSorted

theorem State.Sorted.pop {s : State} (hSorted : s.Sorted) :
    Pops s s.pop.1 s.pop.2 ∧ s.pop.1.Sorted := by
  cases hQueue : s.queue with
  | nil =>
    rw [State.pop_of_nil hQueue]
    exact ⟨.empty hQueue, hSorted⟩
  | cons v rest =>
    rw [State.pop_of_cons hQueue]
    rw [State.Sorted, hQueue, List.pairwise_cons] at hSorted
    exact ⟨.packet ⟨hQueue ▸ List.Perm.refl _, hSorted.1⟩, hSorted.2⟩

theorem State.Sorted.tick {s : State} (hSorted : s.Sorted) (voice : Voice) :
    Ticks s voice (s.tick voice).1 (s.tick voice).2 ∧ (s.tick voice).1.Sorted := by
  rw [State.tick]
  split
  · rename_i hFull
    exact ⟨.full hFull hSorted.pop.1 (State.pushes_push _ _), hSorted.pop.2.push voice⟩
  · rename_i hShort
    split
    · rename_i hReady
      exact ⟨.ready (Nat.lt_of_not_le hShort) hReady, hSorted⟩
    · rename_i hEarly
      exact ⟨.early (Nat.lt_of_not_le hShort) hEarly (State.pushes_push _ _), hSorted.push voice⟩

theorem State.Sorted.call {s s' : State} {c : Call} {o : List (Option Voice)} (hSorted : s.Sorted)
    (hCall : s.call c = some (s', o)) : (∃ r, o = [r] ∧ Returns s c s' r) ∧ s'.Sorted := by
  cases c with
  | tick voice =>
    cases hCall
    exact ⟨⟨_, rfl, .tick (hSorted.tick voice).1⟩, (hSorted.tick voice).2⟩
  | pop =>
    cases hCall
    exact ⟨⟨_, rfl, .pop hSorted.pop.1⟩, hSorted.pop.2⟩

/-- The runs of `State` are runs of the calls. -/
theorem calls_of_run {cs : List Call} {s : State} {tr : List (Option Voice)}
    (hRun : Machine.run State.call .new cs = some (s, tr)) : Calls cs s (emitted tr) ∧ s.Sorted := by
  refine Machine.run_history (P := fun cs s tr => Calls cs s (emitted tr) ∧ s.Sorted)
    ⟨.nil, List.Pairwise.nil⟩ ?_ hRun
  intro cs s tr c s' o hFirst ih hCall
  obtain ⟨⟨r, rfl, hReturns⟩, hSorted⟩ := ih.2.call hCall
  rw [emitted_append, emitted_singleton]
  exact ⟨ih.1.snoc hReturns, hSorted⟩

/-- Each packet that went in is returned once or still buffered, and at most three are buffered. -/
theorem buffer_conserves {cs : List Call} {s : State} {out : List Voice} (hCalls : Calls cs s out) :
    (out : Multiset Voice) + (s.queue : Multiset Voice) = (ticked cs : Multiset Voice) ∧
      s.queue.length ≤ 3 := by
  rw [Multiset.coe_add, Multiset.coe_eq_coe]
  exact ⟨hCalls.perm, hCalls.length_le⟩

/-- Two packets of one sequence number in a heap that fills up, one that is late, and one that is due
and passes the heap by. -/
def crowd : List Call :=
  [.tick ⟨7, [1]⟩, .tick ⟨9, [2]⟩, .tick ⟨7, [3]⟩, .tick ⟨2, [4]⟩, .pop, .tick ⟨3, [5]⟩, .pop]

theorem buffer_conserves_crowd :
    ∃ s out, Calls crowd s out ∧ out.map Voice.sequence = [7, 2, 3, 7] ∧
      (out : Multiset Voice) + (s.queue : Multiset Voice) = (ticked crowd : Multiset Voice) ∧
      s.queue.length ≤ 3 := by
  have hRun : Machine.run State.call .new crowd = some (_, _) := rfl
  exact ⟨_, _, (calls_of_run hRun).1, rfl, buffer_conserves (calls_of_run hRun).1⟩

end Voices.Client.Play
