import Mathlib.Data.List.Basic

/-!
# A bounded broadcast channel

Every value sent goes to the end of one log; a subscriber is a position in
it. The channel keeps the last `slots` values, so that a subscriber that fell
behind is moved to the oldest value kept and told that it lagged. `Seen` says
what a subscriber can have received: in order, a part of what was sent after
it subscribed.
-/

namespace Semantics.Broadcast

universe u

variable {α : Type u}

inductive Recv (α : Type u) where
  | empty
  | lagged (next : Nat)
  | item (value : α) (next : Nat)

def recv (slots : Nat) (log : List α) (next : Nat) : Recv α :=
  if next + slots < log.length then .lagged (log.length - slots)
  else match log[next]? with
    | none => .empty
    | some value => .item value (next + 1)

theorem recv_of_le {slots next : Nat} {log : List α} (hLe : log.length ≤ next + slots) (next' : Nat) :
    recv slots log next ≠ .lagged next' := by
  unfold recv
  rw [if_neg (Nat.not_lt.mpr hLe)]
  split <;> simp

theorem recv_lagged {slots next next' : Nat} {log : List α}
    (h : recv slots log next = .lagged next') : next ≤ next' ∧ next' ≤ log.length := by
  unfold recv at h
  split at h
  · cases h
    omega
  · split at h <;> cases h

theorem recv_item {slots next next' : Nat} {log : List α} {value : α}
    (h : recv slots log next = .item value next') : log[next]? = some value ∧ next' = next + 1 := by
  unfold recv at h
  split at h
  · cases h
  · split at h
    · cases h
    · rename_i hValue
      cases h
      exact ⟨hValue, rfl⟩

/-- The received values of a subscriber from `start` that now stands at `next`. -/
structure Seen (log : List α) (start next : Nat) (got : List α) : Prop where
  start_le : start ≤ next
  next_le : next ≤ log.length
  sublist : got.Sublist ((log.take next).drop start)

theorem Seen.subscribe (log : List α) : Seen log log.length log.length [] :=
  ⟨Nat.le_refl _, Nat.le_refl _, List.nil_sublist _⟩

theorem Seen.send {log : List α} {start next : Nat} {got : List α} (h : Seen log start next got)
    (values : List α) : Seen (log ++ values) start next got where
  start_le := h.start_le
  next_le := by
    have hNext := h.next_le
    rw [List.length_append]
    omega
  sublist := by
    rw [List.take_append_of_le_length h.next_le]
    exact h.sublist

theorem Seen.skip {log : List α} {start next next' : Nat} {got : List α}
    (h : Seen log start next got) (hLe : next ≤ next') (hLength : next' ≤ log.length) :
    Seen log start next' got where
  start_le := Nat.le_trans h.start_le hLe
  next_le := hLength
  sublist := h.sublist.trans ((List.take_sublist_take_left hLe).drop start)

theorem Seen.lagged {log : List α} {start slots next next' : Nat} {got : List α}
    (h : Seen log start next got) (hRecv : recv slots log next = .lagged next') :
    Seen log start next' got :=
  h.skip (recv_lagged hRecv).1 (recv_lagged hRecv).2

theorem Seen.item {log : List α} {start slots next next' : Nat} {got : List α} {value : α}
    (h : Seen log start next got) (hRecv : recv slots log next = .item value next') :
    Seen log start next' (got ++ [value]) := by
  obtain ⟨hValue, rfl⟩ := recv_item hRecv
  have hLt : next < log.length := (List.getElem?_eq_some_iff.mp hValue).1
  have hTake : log.take (next + 1) = log.take next ++ [value] := by
    rw [List.take_add_one, hValue]
    rfl
  have hStart : start ≤ (log.take next).length := by
    rw [List.length_take]
    have hLe := h.start_le
    omega
  refine ⟨Nat.le_trans h.start_le (Nat.le_succ next), hLt, ?_⟩
  rw [hTake, List.drop_append_of_le_length hStart]
  exact h.sublist.append (List.Sublist.refl _)

theorem Seen.passed {log : List α} {start slots next next' : Nat} {got : List α} {value : α}
    (h : Seen log start next got) (hRecv : recv slots log next = .item value next') :
    Seen log start next' got := by
  have hTaken := h.item hRecv
  obtain ⟨_, rfl⟩ := recv_item hRecv
  exact h.skip (Nat.le_succ next) hTaken.next_le

theorem Seen.sublist_log {log : List α} {start next : Nat} {got : List α}
    (h : Seen log start next got) : got.Sublist log :=
  h.sublist.trans ((List.drop_sublist _ _).trans (List.take_sublist _ _))

end Semantics.Broadcast
