import Mathlib.Data.List.Basic
import Std.Data.TreeMap

/-!
# Looking up the members of a family

A family that grows is a list whose members are named by their positions. A
step of one member replaces it, a new member is put at the end. A family with
names of its own is a map.
-/

namespace Semantics

variable {α : Type*} {l : List α} {n i : Nat} {old new d : α}

theorem getElem?_set_iff (hOld : l[n]? = some old) :
    (l.set n new)[i]? = some d ↔ (i = n ∧ d = new) ∨ (i ≠ n ∧ l[i]? = some d) := by
  have hLt : n < l.length := (List.getElem?_eq_some_iff.mp hOld).1
  by_cases hEq : i = n
  · subst hEq
    simp [hLt, eq_comm]
  · simp [Ne.symm hEq, hEq]

theorem getElem?_set_here (hOld : l[n]? = some old) : (l.set n new)[n]? = some new :=
  (getElem?_set_iff hOld).mpr (.inl ⟨rfl, rfl⟩)

theorem getElem?_set_there (hOld : l[n]? = some old) (hNe : i ≠ n) (h : l[i]? = some d) :
    (l.set n new)[i]? = some d :=
  (getElem?_set_iff hOld).mpr (.inr ⟨hNe, h⟩)

theorem getElem?_snoc_iff :
    (l ++ [new])[i]? = some d ↔ l[i]? = some d ∨ (i = l.length ∧ d = new) := by
  constructor
  · intro h
    by_cases hLt : i < l.length
    · exact .inl (by rwa [List.getElem?_append_left hLt] at h)
    · have hEnd : i < (l ++ [new]).length := (List.getElem?_eq_some_iff.mp h).1
      have hEq : i = l.length := by
        simp only [List.length_append, List.length_singleton] at hEnd
        omega
      subst hEq
      simp only [List.getElem?_concat_length, Option.some.injEq] at h
      exact .inr ⟨rfl, h.symm⟩
  · rintro (h | ⟨rfl, rfl⟩)
    · rwa [List.getElem?_append_left (List.getElem?_eq_some_iff.mp h).1]
    · exact List.getElem?_concat_length

section Map

open Std

variable {κ : Type*} [Ord κ] [TransOrd κ] [LawfulEqOrd κ] {m : TreeMap κ α} {k a : κ} {x v : α}

theorem lookup_insert_iff :
    (m.insert k v)[a]? = some x ↔ (a = k ∧ x = v) ∨ (a ≠ k ∧ m[a]? = some x) := by
  simp only [TreeMap.getElem?_insert, Std.compare_eq_iff_eq]
  by_cases hEq : a = k
  · subst hEq
    simp [eq_comm]
  · simp [hEq, Ne.symm hEq]

theorem lookup_erase_iff : (m.erase k)[a]? = some x ↔ a ≠ k ∧ m[a]? = some x := by
  simp only [TreeMap.getElem?_erase, Std.compare_eq_iff_eq]
  by_cases hEq : a = k
  · subst hEq
    simp
  · simp [hEq, Ne.symm hEq]

end Map

end Semantics
