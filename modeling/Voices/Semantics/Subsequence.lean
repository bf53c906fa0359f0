import Mathlib.Data.List.Forall2

/-!
# Images of a subsequence

`List.SublistForall₂ R images sources` says that the images come, in order,
each from one source, and that no source has two. These are the rules for
relaying: sources and images are added at the end, stages are composed, and
both sides are filtered alike.
-/

namespace Semantics.Subsequence

open List

universe u v w

variable {α : Type u} {β : Type v} {γ : Type w} {R : α → β → Prop}

theorem sublist_right {images : List α} {sources sources' : List β}
    (h : SublistForall₂ R images sources) (hSub : sources.Sublist sources') :
    SublistForall₂ R images sources' := by
  obtain ⟨kept, hAll, hKept⟩ := sublistForall₂_iff.mp h
  exact sublistForall₂_iff.mpr ⟨kept, hAll, hKept.trans hSub⟩

theorem append {images images' : List α} {sources sources' : List β}
    (h : SublistForall₂ R images sources) (h' : SublistForall₂ R images' sources') :
    SublistForall₂ R (images ++ images') (sources ++ sources') := by
  induction h with
  | @nil sources => exact sublist_right h' (sublist_append_right sources sources')
  | cons hR _ ih => exact .cons hR ih
  | cons_right _ ih => exact .cons_right ih

theorem snoc {images : List α} {sources : List β} {a : α} {b : β}
    (h : SublistForall₂ R images sources) (hLast : R a b) :
    SublistForall₂ R (images ++ [a]) (sources ++ [b]) := by
  obtain ⟨kept, hAll, hKept⟩ := sublistForall₂_iff.mp h
  refine sublistForall₂_iff.mpr ⟨kept ++ [b], ?_, hKept.append (Sublist.refl _)⟩
  exact rel_append hAll (Forall₂.cons hLast Forall₂.nil)

theorem comp {S : β → γ → Prop} {as : List α} {bs : List β} {cs : List γ}
    (h : SublistForall₂ R as bs) (h' : SublistForall₂ S bs cs) :
    SublistForall₂ (fun a c => ∃ b, R a b ∧ S b c) as cs := by
  induction h' generalizing as with
  | nil =>
    cases h
    exact .nil
  | cons hS _ ih =>
    cases h with
    | nil => exact .nil
    | cons hR hRest => exact .cons ⟨_, hR, hS⟩ (ih hRest)
    | cons_right hRest => exact .cons_right (ih hRest)
  | cons_right _ ih => exact .cons_right (ih h)

theorem filter {p : α → Bool} {q : β → Bool} (hSame : ∀ a b, R a b → p a = q b) {as : List α}
    {bs : List β} (h : SublistForall₂ R as bs) :
    SublistForall₂ R (as.filter p) (bs.filter q) := by
  induction h with
  | nil => exact .nil
  | @cons a b as bs hR _ ih =>
    cases hq : q b with
    | false => rwa [filter_cons_of_neg (by simp [hSame a b hR, hq]), filter_cons_of_neg (by simp [hq])]
    | true =>
      rw [filter_cons_of_pos (by rw [hSame a b hR, hq]), filter_cons_of_pos hq]
      exact .cons hR ih
  | @cons_right b as bs _ ih =>
    cases hq : q b with
    | false => rwa [filter_cons_of_neg (by simp [hq])]
    | true =>
      rw [filter_cons_of_pos hq]
      exact .cons_right ih

theorem mem {images : List α} {sources : List β} (h : SublistForall₂ R images sources) {a : α}
    (ha : a ∈ images) : ∃ b ∈ sources, R a b := by
  induction h with
  | nil => cases ha
  | cons hR _ ih =>
    rcases mem_cons.mp ha with rfl | hRest
    · exact ⟨_, mem_cons_self, hR⟩
    · obtain ⟨b, hb, hRel⟩ := ih hRest
      exact ⟨b, mem_cons_of_mem _ hb, hRel⟩
  | cons_right _ ih =>
    obtain ⟨b, hb, hRel⟩ := ih ha
    exact ⟨b, mem_cons_of_mem _ hb, hRel⟩

theorem mono {S : α → β → Prop} (hImp : ∀ a b, R a b → S a b) {images : List α} {sources : List β}
    (h : SublistForall₂ R images sources) : SublistForall₂ S images sources := by
  induction h with
  | nil => exact .nil
  | cons hR _ ih => exact .cons (hImp _ _ hR) ih
  | cons_right _ ih => exact .cons_right ih

/-- What image and source have in common forms a subsequence. -/
theorem map_sublist {f : α → γ} {g : β → γ} (hSame : ∀ a b, R a b → f a = g b) {images : List α}
    {sources : List β} (h : SublistForall₂ R images sources) :
    (images.map f).Sublist (sources.map g) := by
  induction h with
  | nil => exact nil_sublist _
  | cons hR _ ih =>
    rw [map_cons, map_cons, hSame _ _ hR]
    exact ih.cons_cons _
  | cons_right _ ih =>
    rw [map_cons]
    exact ih.cons _

/-- What one reader gives of the members of a list, another that gives at least as much gives too. -/
theorem filterMap_sublist {f g : α → Option β} {as : List α}
    (hLe : ∀ a ∈ as, ∀ b, f a = some b → g a = some b) : (as.filterMap f).Sublist (as.filterMap g) := by
  induction as with
  | nil => exact nil_sublist _
  | cons a as ih =>
    have hRest := ih fun a' hMem => hLe a' (mem_cons_of_mem a hMem)
    cases hf : f a with
    | none =>
      rw [filterMap_cons_none hf]
      exact hRest.trans ((sublist_cons_self a as).filterMap g)
    | some b =>
      rw [filterMap_cons_some hf, filterMap_cons_some (hLe a mem_cons_self b hf)]
      exact hRest.cons_cons b

section Cursor

variable {as : List α} {n m : Nat}

/-- Whoever reads a list in order keeps what was read while the list grows. -/
theorem take_sublist_append (hLe : n ≤ m) (more : List α) : (as.take n).Sublist ((as ++ more).take m) := by
  rw [take_append]
  exact ((take_prefix_take_left hLe).sublist).trans (sublist_append_left _ _)

theorem take_snoc_sublist {a : α} (hLe : n ≤ m) (hAt : as[m]? = some a) :
    (as.take n ++ [a]).Sublist (as.take (m + 1)) := by
  rw [take_add_one, hAt]
  exact (take_prefix_take_left hLe).sublist.append (Sublist.refl [a])

end Cursor

end Semantics.Subsequence
