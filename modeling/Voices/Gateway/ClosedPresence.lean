import Voices.Gateway.Presence

/-!
# Joins and leaves of a presence

The calls that a `LocallyPresent` gets under its lock, in any order and with any
ids. `leave` computes the flag `live` anew each time, but no join has written to the
map since a leave found it empty.
-/

namespace Voices.Gateway.LocallyPresent

open Semantics VoiceServer Std

inductive Call where
  | join (info : ClientInfo)
  | leave (clientId : Uuid)
  deriving DecidableEq

def Call.clientId : Call → Uuid
  | .join info => info.clientId
  | .leave clientId => clientId

def call (p : LocallyPresent) : Call → LocallyPresent × Bool
  | .join info => p.join info
  | .leave clientId => p.leave clientId

/-- The output is the call with what it returns. -/
def step (p : LocallyPresent) (c : Call) : Option (LocallyPresent × List (Call × Bool)) :=
  some ((p.call c).1, [(c, (p.call c).2)])

/-- A leave has returned that nobody is left. -/
def Emptied (tr : List (Call × Bool)) : Prop := ∃ id, (Call.leave id, true) ∈ tr

/-- The last call about the client is a join with this info. -/
def Joined (calls : List Call) (info : ClientInfo) : Prop :=
  ∃ before after : List Call, calls = before ++ .join info :: after ∧ ∀ c ∈ after, c.clientId ≠ info.clientId

variable {p p' : LocallyPresent} {calls : List Call} {tr tr' : List (Call × Bool)} {c : Call}
  {info : ClientInfo} {id : Uuid}

theorem not_joined_nil : ¬ Joined [] info := by
  rintro ⟨before, after, hCalls, _⟩
  cases before <;> cases hCalls

theorem joined_snoc_iff :
    Joined (calls ++ [c]) info ↔
      c = .join info ∨ (c.clientId ≠ info.clientId ∧ Joined calls info) := by
  constructor
  · rintro ⟨before, after, hCalls, hAfter⟩
    obtain rfl | ⟨after, d, rfl⟩ := List.eq_nil_or_concat after
    · exact .inl (List.singleton_inj.mp (List.append_inj' hCalls rfl).2)
    · rw [List.concat_eq_append, ← List.cons_append, ← List.append_assoc] at hCalls
      obtain ⟨hFirst, hLast⟩ := List.append_inj' hCalls rfl
      cases hLast
      rw [List.concat_eq_append, List.forall_mem_append] at hAfter
      exact .inr ⟨hAfter.2 c (List.mem_singleton_self c), before, after, hFirst, hAfter.1⟩
  · rintro (rfl | ⟨hOther, before, after, rfl, hAfter⟩)
    · exact ⟨calls, [], rfl, fun e hMem => absurd hMem List.not_mem_nil⟩
    · refine ⟨before, after ++ [c], by simp, ?_⟩
      exact List.forall_mem_append.mpr ⟨hAfter, List.forall_mem_singleton.mpr hOther⟩

theorem emptied_join_iff {ok : Bool} : Emptied (tr ++ [(Call.join info, ok)]) ↔ Emptied tr := by
  simp [Emptied]

theorem emptied_leave_iff {empty : Bool} :
    Emptied (tr ++ [(Call.leave id, empty)]) ↔ Emptied tr ∨ empty = true := by
  simp [Emptied, exists_or]

/-! ### One call -/

theorem leave_eq_true_iff : (p.leave id).2 = true ↔ (p.leave id).1.list = [] := by
  rw [list, List.map_eq_nil_iff, ← List.isEmpty_iff, TreeMap.isEmpty_toList, leave_inner]
  simp [leave]

theorem list_of_closed (hClosed : p.live = false) : p.list = [] := by
  rw [list, List.map_eq_nil_iff, ← List.isEmpty_iff, TreeMap.isEmpty_toList]
  exact p.closed hClosed

theorem leave_of_closed (hClosed : p.live = false) : (p.leave id).2 = true := by
  rw [leave_empty_iff]
  intro other info hInfo
  cases hClosed.symm.trans (live_of_mem hInfo)

theorem map_clientId_list (p : LocallyPresent) : p.list.map ClientInfo.clientId = p.inner.keys := by
  rw [list, List.map_map, ← TreeMap.map_fst_toList_eq_keys]
  refine List.map_congr_left fun entry hMem => ?_
  exact p.keyed entry.1 entry.2 (TreeMap.mem_toList_iff_getElem?_eq_some.mp hMem)

theorem nodup_list (p : LocallyPresent) : (p.list.map ClientInfo.clientId).Nodup := by
  rw [map_clientId_list]
  exact TreeMap.nodup_keys

/-! ### Any calls -/

/-- A presence is live until a leave finds it empty, and its members are those that have joined. -/
structure Kept (calls : List Call) (p : LocallyPresent) (tr : List (Call × Bool)) : Prop where
  live : p.live = false ↔ Emptied tr
  members : p.live = true → ∀ info, p.inner[info.clientId]? = some info ↔ Joined calls info

theorem Kept.new : Kept [] new [] where
  live := ⟨fun h => (by cases h), fun ⟨_, hMem⟩ => absurd hMem List.not_mem_nil⟩
  members _ info := ⟨fun h => by simp [LocallyPresent.new] at h, fun h => absurd h not_joined_nil⟩

theorem Kept.join (hKept : Kept calls p tr) (info : ClientInfo) :
    Kept (calls ++ [Call.join info]) (p.join info).1 (tr ++ [(Call.join info, (p.join info).2)]) := by
  cases hLive : p.live with
  | false =>
    rw [join_of_closed hLive]
    refine ⟨?_, fun h => by cases hLive.symm.trans h⟩
    rw [emptied_join_iff]
    exact hKept.live
  | true =>
    obtain ⟨_, hStays, hInner⟩ := join_of_live hLive info
    constructor
    · rw [hStays, ← hLive, emptied_join_iff]
      exact hKept.live
    · intro _ other
      rw [hInner, lookup_insert_iff, joined_snoc_iff, hKept.members hLive other]
      grind [Call.clientId]

theorem Kept.leave (hKept : Kept calls p tr) (id : Uuid) :
    Kept (calls ++ [Call.leave id]) (p.leave id).1 (tr ++ [(Call.leave id, (p.leave id).2)]) := by
  constructor
  · rw [leave_live, emptied_leave_iff, Bool.not_eq_false', iff_or_self, ← hKept.live]
    exact leave_of_closed
  · intro hLive other
    have hBefore : p.live = true := by
      rw [leave_live, Bool.not_eq_true'] at hLive
      by_contra hClosed
      cases hLive.symm.trans (leave_of_closed (eq_false_of_ne_true hClosed))
    rw [leave_inner, lookup_erase_iff, joined_snoc_iff, hKept.members hBefore other]
    simp [Call.clientId, eq_comm]

theorem Kept.of_run (hRun : Machine.run step .new calls = some (p, tr)) : Kept calls p tr := by
  refine Machine.run_history (P := Kept) Kept.new ?_ hRun
  intro calls p tr c p' o _ hKept h
  cases h
  cases c with
  | join info => exact hKept.join info
  | leave id => exact hKept.leave id

/-- Once a presence is closed, all calls find it so. -/
theorem closed_of_run (hClosed : p.live = false) (hRun : Machine.run step p calls = some (p', tr)) :
    p'.live = false ∧ ∀ info ok, (Call.join info, ok) ∈ tr → ok = false := by
  refine Machine.run_induction
    (P := fun p tr => p.live = false ∧ ∀ info ok, (Call.join info, ok) ∈ tr → ok = false)
    ⟨hClosed, fun _ _ hMem => absurd hMem List.not_mem_nil⟩ ?_ hRun
  rintro p tr c p' o ⟨hClosed, hRefused⟩ h
  cases h
  cases c with
  | join info =>
    simp only [call, join_of_closed hClosed]
    refine ⟨hClosed, fun other ok hMem => ?_⟩
    obtain hOld | hNew := List.mem_append.mp hMem
    · exact hRefused other ok hOld
    · cases List.mem_singleton.mp hNew
      rfl
  | leave id =>
    refine ⟨?_, fun other ok hMem => ?_⟩
    · rw [call, leave_live, leave_of_closed hClosed]
      rfl
    · obtain hOld | hNew := List.mem_append.mp hMem
      · exact hRefused other ok hOld
      · cases List.mem_singleton.mp hNew

/-- After any calls a leave returns true exactly if it leaves nobody behind; once one has, the
list is empty for good and all joins are refused; before, joins are accepted and the list has
exactly the clients that have joined and not left since, each with the info of its latest join. -/
theorem closed_presence (hRun : Machine.run step new calls = some (p, tr)) :
    (∀ id, (p.leave id).2 = true ↔ (p.leave id).1.list = []) ∧
      (Emptied tr → p.list = [] ∧ ∀ calls' p' tr', Machine.run step p calls' = some (p', tr') →
        p'.list = [] ∧ ∀ info ok, (Call.join info, ok) ∈ tr' → ok = false) ∧
      (¬ Emptied tr → (∀ info, (p.join info).2 = true) ∧ (p.list.map ClientInfo.clientId).Nodup ∧
        ∀ info, info ∈ p.list ↔ Joined calls info) := by
  have hKept := Kept.of_run hRun
  refine ⟨fun id => leave_eq_true_iff, fun hEmptied => ?_, fun hOpen => ?_⟩
  · have hClosed := hKept.live.mpr hEmptied
    refine ⟨list_of_closed hClosed, fun calls' p' tr' hAfter => ?_⟩
    obtain ⟨hStill, hRefused⟩ := closed_of_run hClosed hAfter
    exact ⟨list_of_closed hStill, hRefused⟩
  · have hLive : p.live = true := by
      rw [← hKept.live] at hOpen
      exact eq_true_of_ne_false hOpen
    refine ⟨fun info => (join_of_live hLive info).1, p.nodup_list, fun info => ?_⟩
    rw [mem_list_iff]
    exact hKept.members hLive info

/-- A client joins twice, a stranger leaves, the client leaves and comes too late. -/
theorem closed_presence_rejoined :
    ∃ p tr,
      Machine.run step new [.join ⟨1, 7, "a"⟩, .join ⟨1, 8, "b"⟩, .leave 2, .leave 1, .join ⟨1, 9, "c"⟩] =
        some (p, tr) ∧
      (∀ id, (p.leave id).2 = true ↔ (p.leave id).1.list = []) ∧
      (Emptied tr → p.list = [] ∧ ∀ calls' p' tr', Machine.run step p calls' = some (p', tr') →
        p'.list = [] ∧ ∀ info ok, (Call.join info, ok) ∈ tr' → ok = false) ∧
      (¬ Emptied tr → (∀ info, (p.join info).2 = true) ∧ (p.list.map ClientInfo.clientId).Nodup ∧
        ∀ info, info ∈ p.list ↔
          Joined [.join ⟨1, 7, "a"⟩, .join ⟨1, 8, "b"⟩, .leave 2, .leave 1, .join ⟨1, 9, "c"⟩] info) := by
  obtain ⟨⟨p, tr⟩, hRun⟩ := Option.isSome_iff_exists.mp (show (Machine.run step new
    [.join ⟨1, 7, "a"⟩, .join ⟨1, 8, "b"⟩, .leave 2, .leave 1, .join ⟨1, 9, "c"⟩]).isSome = true from rfl)
  exact ⟨p, tr, hRun, closed_presence hRun⟩

end Voices.Gateway.LocallyPresent
