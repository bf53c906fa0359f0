import Mathlib.Data.Finset.Insert
import Mathlib.Data.Finset.Erase

/-!
# Replaying updates on a set

A replica starts from some members and applies the updates that it receives,
each of which adds or removes one. Whether a member is in the result depends on
the last update about it, and on where the replica started when there is none.
-/

namespace Semantics.Replay

universe u

variable {α : Type u}

inductive Update (α : Type u) where
  | add (member : α)
  | remove (member : α)
  deriving DecidableEq

def Update.member : Update α → α
  | .add a => a
  | .remove a => a

def Touched (updates : List (Update α)) (a : α) : Prop := ∃ u ∈ updates, u.member = a

theorem touched_append_iff {updates later : List (Update α)} {a : α} :
    Touched (updates ++ later) a ↔ Touched updates a ∨ Touched later a := by
  simp only [Touched, List.mem_append, or_and_right, exists_or]

variable [DecidableEq α]

def Update.apply (view : Finset α) : Update α → Finset α
  | .add a => insert a view
  | .remove a => view.erase a

def replay (view : Finset α) (updates : List (Update α)) : Finset α :=
  updates.foldl Update.apply view

variable {view : Finset α} {updates : List (Update α)} {u : Update α} {a : α}

@[simp] theorem replay_nil : replay view [] = view := rfl

theorem replay_append (view : Finset α) (updates later : List (Update α)) :
    replay view (updates ++ later) = replay (replay view updates) later :=
  List.foldl_append

@[simp] theorem replay_snoc : replay view (updates ++ [u]) = u.apply (replay view updates) :=
  replay_append view updates [u]

theorem mem_apply_of_ne (hNe : u.member ≠ a) : a ∈ u.apply view ↔ a ∈ view := by
  cases u with
  | add b => simp [Update.apply, Ne.symm (show b ≠ a from hNe)]
  | remove b => simp [Update.apply, Ne.symm (show b ≠ a from hNe)]

/-- The start does not matter after an update about the member. -/
theorem mem_apply_congr (hEq : u.member = a) (other : Finset α) :
    a ∈ u.apply view ↔ a ∈ u.apply other := by
  subst hEq
  cases u with
  | add b => simp [Update.apply, Update.member]
  | remove b => simp [Update.apply, Update.member]

theorem mem_replay_of_untouched (hUntouched : ¬ Touched updates a) :
    a ∈ replay view updates ↔ a ∈ view := by
  induction updates using List.reverseRecOn with
  | nil => rfl
  | append_singleton updates u ih =>
    rw [touched_append_iff, not_or] at hUntouched
    rw [replay_snoc, mem_apply_of_ne, ih hUntouched.1]
    intro hEq
    exact hUntouched.2 ⟨u, List.mem_singleton.mpr rfl, hEq⟩

theorem mem_replay_of_touched (hTouched : Touched updates a) (other : Finset α) :
    a ∈ replay view updates ↔ a ∈ replay other updates := by
  induction updates using List.reverseRecOn with
  | nil =>
    obtain ⟨u, hMem, _⟩ := hTouched
    cases hMem
  | append_singleton updates u ih =>
    rw [replay_snoc, replay_snoc]
    by_cases hEq : u.member = a
    · exact mem_apply_congr hEq _
    · rw [mem_apply_of_ne hEq, mem_apply_of_ne hEq]
      refine ih ?_
      rcases touched_append_iff.mp hTouched with hEarlier | ⟨v, hMem, hMember⟩
      · exact hEarlier
      · cases List.mem_singleton.mp hMem
        exact absurd hMember hEq

end Semantics.Replay
