import Mathlib.Data.List.Basic

/-!
# Pipes

A pipe carries items in order from one end to the other. It may be cut, once
or again: what is left of it is the beginning of what it carried, and what is
put in later is lost. `Holds` compares a pipe with the one that was never cut.
-/

namespace Semantics

universe u

structure Pipe (α : Type u) where
  items : List α
  closed : Bool
  deriving DecidableEq

namespace Pipe

variable {α : Type u} {p : Pipe α} {full : List α} {a : α}

def new : Pipe α := { items := [], closed := false }

def push (p : Pipe α) (items : List α) : Pipe α :=
  if p.closed then p else { p with items := p.items ++ items }

def cut (p : Pipe α) (n : Nat) : Pipe α := { items := p.items.take n, closed := true }

/-- `full` is what the pipe would carry if it had not been cut. -/
structure Holds (p : Pipe α) (full : List α) : Prop where
  isPrefix : p.items <+: full
  whole : p.closed = false → p.items = full

theorem Holds.new : Holds (new : Pipe α) [] := ⟨List.prefix_rfl, fun _ => rfl⟩

theorem Holds.push (h : Holds p full) (items : List α) : Holds (p.push items) (full ++ items) := by
  rw [Pipe.push]
  split
  · rename_i hClosed
    refine ⟨h.isPrefix.trans (List.prefix_append _ _), fun hOpen => ?_⟩
    rw [hClosed] at hOpen
    cases hOpen
  · rename_i hOpen
    have hWhole : p.items ++ items = full ++ items := by
      rw [h.whole (Bool.eq_false_iff.mpr hOpen)]
    exact ⟨hWhole ▸ List.prefix_rfl, fun _ => hWhole⟩

theorem Holds.cut (h : Holds p full) (n : Nat) : Holds (p.cut n) full :=
  ⟨(List.take_prefix n p.items).trans h.isPrefix, nofun⟩

/-- The first item of the pipe is the first of what it would carry. -/
theorem Holds.pop {rest : List α} (h : Holds p full) (hItems : p.items = a :: rest) :
    ∃ full', full = a :: full' ∧ Holds { p with items := rest } full' := by
  obtain ⟨more, hMore⟩ := h.isPrefix
  rw [hItems, List.cons_append] at hMore
  refine ⟨rest ++ more, hMore.symm, List.prefix_append _ _, fun hOpen => ?_⟩
  have hWhole := h.whole hOpen
  rw [hItems, ← hMore] at hWhole
  exact (List.cons.inj hWhole).2

theorem Holds.eq_nil (h : Holds p []) : p.items = [] := List.prefix_nil.mp h.isPrefix

end Pipe

end Semantics
