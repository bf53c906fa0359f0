import Mathlib

/-!
# Balanced shares

The rows of a table are shared among bins. A row first books a bin that has the least load then, and is
placed later. Then no bin gets over a bound more than another, and so none much more than its part.
-/

namespace Semantics.Balance

open Std

section Bins

variable {ι : Type*} {d : Nat} {bins bins' : List ι} {booked booked' load load' : ι → Nat}

/-- A bin has, with what is booked for it, at most `d` more than another. -/
def Within (d : Nat) (bins : List ι) (booked load : ι → Nat) : Prop :=
  ∀ i ∈ bins, ∀ j ∈ bins, booked i ≤ load j + d

theorem Within.mono (h : Within d bins booked load) (hBins : ∀ i ∈ bins', i ∈ bins)
    (hBooked : ∀ i ∈ bins', booked' i ≤ booked i) (hLoad : ∀ i ∈ bins', load i ≤ load' i) :
    Within d bins' booked' load' := by
  intro i hFirst j hSecond
  have hPair := h i (hBins i hFirst) j (hBins j hSecond)
  have hLess := hBooked i hFirst
  have hMore := hLoad j hSecond
  omega

/-- A bin that joins has neither far more nor far less than another. -/
theorem Within.join (h : Within d bins booked load) {k : ι} (hBins : ∀ i ∈ bins', i = k ∨ i ∈ bins)
    (hOwn : booked k ≤ load k + d)
    (hNear : ∀ j ∈ bins, booked k ≤ load j + d ∧ booked j ≤ load k + d) :
    Within d bins' booked load := by
  intro i hFirst j hSecond
  rcases hBins i hFirst with rfl | hFirst
  · rcases hBins j hSecond with rfl | hSecond
    · exact hOwn
    · exact (hNear j hSecond).1
  · rcases hBins j hSecond with rfl | hSecond
    · exact (hNear i hFirst).2
    · exact h i hFirst j hSecond

/-- A row books a bin that has the least load, while there are fewer than `d` bookings. -/
theorem Within.book (h : Within d bins booked load) {k : ι} (hLeast : ∀ j ∈ bins, load k ≤ load j)
    (hRoom : booked' k ≤ load k + d) (hRest : ∀ i ∈ bins, i ≠ k → booked' i ≤ booked i) :
    Within d bins booked' load := by
  intro i hFirst j hSecond
  by_cases hEq : i = k
  · subst hEq
    have hLess := hLeast j hSecond
    omega
  · exact Nat.le_trans (hRest i hFirst hEq) (h i hFirst j hSecond)

variable [DecidableEq ι]

/-- A row leaves a bin that does not have the least load by far. -/
theorem Within.release (h : Within d bins booked load) {k : ι}
    (hSpare : k ∈ bins → ∀ i ∈ bins, booked i < load k + d) (hBooked : ∀ i, booked' i ≤ booked i)
    (hLoad : ∀ j, load j ≤ load' j + if k = j then 1 else 0) : Within d bins booked' load' := by
  intro i hFirst j hSecond
  have hPair := h i hFirst j hSecond
  have hLess := hBooked i
  have hOne := hLoad j
  by_cases hEq : k = j
  · subst hEq
    have hFar := hSpare hSecond i hFirst
    rw [if_pos rfl] at hOne
    omega
  · rw [if_neg hEq] at hOne
    omega

omit [DecidableEq ι] in
/-- No bin has much more than its part of the sum. -/
theorem Within.share (h : Within d bins booked load) {i : ι} (hMem : i ∈ bins) :
    bins.length * booked i ≤ (bins.map load).sum + bins.length * d := by
  have hAll : ∀ js : List ι, (∀ j ∈ js, j ∈ bins) →
      js.length * booked i ≤ (js.map load).sum + js.length * d := by
    intro js
    induction js with
    | nil => simp
    | cons j js ih =>
      intro hSub
      have hRest := ih fun k hRest => hSub k (List.mem_cons_of_mem j hRest)
      have hOne := h i hMem j (hSub j List.mem_cons_self)
      rw [List.length_cons, List.map_cons, List.sum_cons, Nat.succ_mul, Nat.succ_mul]
      omega
  exact hAll bins fun _ hMem => hMem

omit [DecidableEq ι] in
/-- Setting an entry exchanges what it booked for what it books. -/
theorem filterMap_set_perm {α : Type*} {f : α → Option ι} {rows : List α} {n : Nat} {a : α}
    (h : rows[n]? = some a) (b : α) :
    ((f a).toList ++ (rows.set n b).filterMap f).Perm ((f b).toList ++ rows.filterMap f) := by
  have hCons : ∀ (x : α) (xs : List α), (x :: xs).filterMap f = (f x).toList ++ xs.filterMap f := by
    intro x xs
    cases hValue : f x <;> simp [hValue]
  induction rows generalizing n with
  | nil => cases h
  | cons row rows ih =>
    cases n with
    | zero =>
      cases h
      rw [List.set_cons_zero, hCons, hCons]
      exact List.perm_append_comm_assoc _ _ _
    | succ n =>
      rw [List.set_cons_succ, hCons, hCons]
      refine (List.perm_append_comm_assoc _ _ _).trans ?_
      exact ((ih h).append_left _).trans (List.perm_append_comm_assoc _ _ _)

theorem sum_indicator (o : ι) (ids : List ι) :
    (ids.map fun id => if o = id then 1 else 0).sum = ids.count o := by
  induction ids with
  | nil => rfl
  | cons id ids ih =>
    rw [List.map_cons, List.sum_cons, ih, List.count_cons, Nat.add_comm]
    by_cases hEq : o = id
    · simp [hEq]
    · simp [hEq, Ne.symm hEq]

/-- Each row is in one bin at most. -/
theorem sum_countP_le {α : Type*} (owner : α → Option ι) (rows : List α) {ids : List ι}
    (hNodup : ids.Nodup) :
    (ids.map fun id => rows.countP fun row => owner row == some id).sum ≤ rows.length := by
  induction rows with
  | nil => simp
  | cons row rows ih =>
    have hOne : (ids.map fun id => if owner row == some id then 1 else 0).sum ≤ 1 := by
      cases hOwner : owner row with
      | none => simp
      | some o =>
        have hCount : ids.count o ≤ 1 := List.nodup_iff_count_le_one.mp hNodup o
        simpa [← sum_indicator] using hCount
    simp only [List.countP_cons, List.sum_map_add, List.length_cons]
    omega

end Bins

section Tables

variable {κ α : Type*} [Ord κ] [TransOrd κ] [LawfulEqOrd κ] [BEq κ] [LawfulBEq κ]
  {m : TreeMap κ α} {k : κ} {v : α} {p : α → Bool}

/-- The rows of a table that a predicate selects. -/
def share (m : TreeMap κ α) (p : α → Bool) : Nat := m.toList.countP fun row => p row.2

theorem filter_key : (m.toList.filter fun row => k == row.1).Perm (m[k]?.map fun v => (k, v)).toList := by
  have hNodup : m.toList.Nodup :=
    TreeMap.distinct_keys_toList.imp fun hKeys hEq => hKeys (by rw [hEq, compare_self])
  have hOne : (m[k]?.map fun v => (k, v)).toList.Nodup := by
    cases m[k]? with
    | none => exact List.nodup_nil
    | some v => exact List.nodup_singleton _
  refine (List.perm_ext_iff_of_nodup (hNodup.filter _) hOne).mpr ?_
  rintro ⟨a, v⟩
  simp only [List.mem_filter, TreeMap.mem_toList_iff_getElem?_eq_some, beq_iff_eq, Option.mem_toList,
    Option.map_eq_some_iff, Prod.mk.injEq]
  constructor
  · rintro ⟨hFound, rfl⟩
    exact ⟨v, hFound, rfl, rfl⟩
  · rintro ⟨v', hFound, rfl, rfl⟩
    exact ⟨hFound, rfl⟩

theorem share_insert :
    share (m.insert k v) p + (if m[k]?.any p then 1 else 0) = share m p + if p v then 1 else 0 := by
  have hNew : share (m.insert k v) p =
      (m.toList.filter fun row => !(k == row.1)).countP (fun row => p row.2) + if p v then 1 else 0 := by
    rw [share, (TreeMap.toList_insert_perm).countP_eq, List.countP_cons]
    simp
  have hHere : (m.toList.filter fun row => k == row.1).countP (fun row => p row.2) =
      if m[k]?.any p then 1 else 0 := by
    rw [filter_key.countP_eq]
    cases m[k]? <;> simp [List.countP_cons]
  have hOld := List.countP_eq_countP_filter_add m.toList (fun row => p row.2) fun row => k == row.1
  rw [hHere] at hOld
  rw [hNew, share]
  omega

end Tables

end Semantics.Balance
