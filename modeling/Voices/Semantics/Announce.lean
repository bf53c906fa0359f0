import Mathlib.Data.List.Infix
import Mathlib.Logic.Function.Basic
import Voices.Semantics.Replay

/-!
# A snapshot and the announcements around it

A member is stored, then announced, later withdrawn and only then erased from the
store. A replica reads the store once and replays the announcements that reach it,
which are the latest ones from some point on. About a member without any of these
it has only the snapshot, which has to agree with where the member stands.
-/

namespace Semantics.Replay

universe u

variable {α : Type u}

inductive Status where
  | absent
  | stored
  | announced
  | withdrawn
  | erased
  deriving DecidableEq

def Status.listed : Status → Prop
  | .stored | .announced | .withdrawn => True
  | .absent | .erased => False

instance : (status : Status) → Decidable status.listed
  | .stored | .announced | .withdrawn => .isTrue trivial
  | .absent | .erased => .isFalse id

def Update.status : Update α → Status
  | .add _ => .announced
  | .remove _ => .withdrawn

/-- Without an announcement of the member, a snapshot has it only when it has been stored, and has
it when it has been announced. -/
def Agrees (status : α → Status) (base : Finset α) (log : List (Update α)) (a : α) : Prop :=
  ¬ Touched log a →
    (a ∈ base → status a = .stored ∨ status a = .announced) ∧ (status a = .announced → a ∈ base)

variable {status status' : α → Status} {published log : List (Update α)} {base : Finset α} {a : α}
  {u : Update α}

theorem Agrees.snapshot (hBase : a ∈ base ↔ (status a).listed)
    (hWithdrawn : status a = .withdrawn → Touched log a) : Agrees status base log a := by
  intro hUntouched
  rw [hBase]
  cases hStatus : status a with
  | withdrawn => exact absurd (hWithdrawn hStatus) hUntouched
  | _ => simp [Status.listed]

theorem Agrees.congr (hAgrees : Agrees status base log a) (hStatus : status' a = status a) :
    Agrees status' base log a := by
  rwa [Agrees, hStatus]

theorem Agrees.append (hAgrees : Agrees status base log a) (later : List (Update α)) :
    Agrees status base (log ++ later) a :=
  fun hUntouched => hAgrees fun hTouched => hUntouched (touched_append_iff.mpr (.inl hTouched))

/-- A member that is not announced may be stored or erased. -/
theorem Agrees.move (hAgrees : Agrees status base log a)
    (hOld : status a = .absent ∨ status a = .withdrawn)
    (hNew : status' a = .stored ∨ status' a = .erased) : Agrees status' base log a := by
  intro hUntouched
  obtain ⟨hIn, _⟩ := hAgrees hUntouched
  constructor
  · intro hMem
    rcases hOld with hOld | hOld <;> rcases hIn hMem with hEq | hEq <;> cases hOld.symm.trans hEq
  · intro hAnnounced
    rcases hNew with hNew | hNew <;> cases hNew.symm.trans hAnnounced

/-- An announcement that does not reach the replica does no harm when the snapshot has the member. -/
theorem Agrees.missed (hMem : a ∈ base) (hStatus : status a = .announced) :
    Agrees status base log a :=
  fun _ => ⟨fun _ => .inr hStatus, fun _ => hMem⟩

theorem Agrees.reached : Agrees status base (log ++ [u]) u.member :=
  fun hUntouched =>
    absurd (touched_append_iff.mpr (.inr ⟨u, List.mem_singleton.mpr rfl, rfl⟩)) hUntouched

variable [DecidableEq α]

/-- The last of the latest announcements of a member says where it stands. -/
def Recorded (status : α → Status) (published : List (Update α)) : Prop :=
  ∀ (log : List (Update α)) (a : α), log <:+ published → Touched log a →
    (a ∈ replay ∅ log → status a = .announced) ∧
      (a ∉ replay ∅ log → status a = .withdrawn ∨ status a = .erased)

theorem Recorded.nil : Recorded status [] := by
  intro log a hSuffix hTouched
  obtain ⟨u, hMem, _⟩ := hTouched
  cases List.suffix_nil.mp hSuffix
  cases hMem

theorem Recorded.untouched (hRecorded : Recorded status published) (hSuffix : log <:+ published)
    (hStatus : status a = .absent ∨ status a = .stored) : ¬ Touched log a := by
  intro hTouched
  obtain ⟨hIn, hOut⟩ := hRecorded log a hSuffix hTouched
  by_cases hMem : a ∈ replay ∅ log
  · rcases hStatus with hEq | hEq <;> cases hEq.symm.trans (hIn hMem)
  · rcases hStatus with hEq | hEq <;> rcases hOut hMem with hGone | hGone <;>
      cases hEq.symm.trans hGone

theorem Recorded.publish (hRecorded : Recorded status published) (u : Update α) :
    Recorded (Function.update status u.member u.status) (published ++ [u]) := by
  intro log a hSuffix hTouched
  rcases List.suffix_concat_iff.mp hSuffix with rfl | ⟨earlier, rfl, hEarlier⟩
  · obtain ⟨_, hMem, _⟩ := hTouched
    cases hMem
  · rw [replay_snoc]
    by_cases hEq : u.member = a
    · subst hEq
      cases u with
      | add b => simp [Update.apply, Update.member, Update.status]
      | remove b => simp [Update.apply, Update.member, Update.status]
    · rw [mem_apply_of_ne hEq, Function.update_of_ne (Ne.symm hEq)]
      refine hRecorded earlier a hEarlier ?_
      rcases touched_append_iff.mp hTouched with hTouched | ⟨v, hMem, hMember⟩
      · exact hTouched
      · cases List.mem_singleton.mp hMem
        exact absurd hMember hEq

theorem Recorded.store (hRecorded : Recorded status published) (hStatus : status a = .absent) :
    Recorded (Function.update status a .stored) published := by
  intro log b hSuffix hTouched
  have hNe : b ≠ a := by
    rintro rfl
    exact hRecorded.untouched hSuffix (.inl hStatus) hTouched
  rw [Function.update_of_ne hNe]
  exact hRecorded log b hSuffix hTouched

theorem Recorded.erase (hRecorded : Recorded status published) (hStatus : status a = .withdrawn) :
    Recorded (Function.update status a .erased) published := by
  intro log b hSuffix hTouched
  have hOld := hRecorded log b hSuffix hTouched
  by_cases hEq : b = a
  · subst hEq
    rw [Function.update_self]
    refine ⟨fun hMem => ?_, fun _ => .inr rfl⟩
    cases hStatus.symm.trans (hOld.1 hMem)
  · rwa [Function.update_of_ne hEq]

theorem mem_replay_iff (hRecorded : Recorded status published) (hSuffix : log <:+ published)
    (hAgrees : Agrees status base log a) (hSettled : status a ≠ .stored) :
    a ∈ replay base log ↔ status a = .announced := by
  by_cases hTouched : Touched log a
  · rw [mem_replay_of_touched hTouched ∅]
    obtain ⟨hIn, hOut⟩ := hRecorded log a hSuffix hTouched
    refine ⟨hIn, fun hAnnounced => ?_⟩
    by_contra hNotMem
    rcases hOut hNotMem with hEq | hEq <;> cases hEq.symm.trans hAnnounced
  · obtain ⟨hIn, hOut⟩ := hAgrees hTouched
    rw [mem_replay_of_untouched hTouched]
    exact ⟨fun hMem => (hIn hMem).resolve_left hSettled, hOut⟩

/-- What is filtered out concerns others. -/
theorem mem_replay_filter {own : α} (hNe : a ≠ own) (updates : List (Update α)) :
    a ∈ replay base (updates.filter fun u => u.member ≠ own) ↔ a ∈ replay base updates := by
  induction updates using List.reverseRecOn with
  | nil => rfl
  | append_singleton updates u ih =>
    rw [List.filter_append, replay_snoc]
    by_cases hEq : u.member = own
    · rw [mem_apply_of_ne (by rw [hEq]; exact Ne.symm hNe)]
      simpa [hEq] using ih
    · rw [List.filter_cons_of_pos (by simpa using hEq), List.filter_nil, replay_snoc]
      by_cases hMember : u.member = a
      · exact mem_apply_congr hMember _
      · rw [mem_apply_of_ne hMember, mem_apply_of_ne hMember, ih]

end Semantics.Replay
