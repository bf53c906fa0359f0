import Voices.Registry.ChannelsImpl

/-!
# What `assign_channel` records

`assign_channel` answers the server that it picked. The transaction that
follows keeps an older assignment and skips a channel that is not there, and
its result is dropped.
-/

namespace Voices.Registry

open VoiceServer Std

namespace ChannelsImpl

/-- The server that the call answers is the one to which the channel is assigned after it. -/
def Records (db : Database) (now : Instant) (cid : Uuid) (reassign : Bool) (pick : Uuid) : Prop :=
  ∀ db' srv, ChannelsImpl.assignChannel db now cid reassign pick = some (db', .ok srv) →
    db'.channels.contains cid = true ∧ db'.assignedTo cid = some srv.id ∧
      ChannelsImpl.getChannel db' now cid = some (some srv.hostUrl)

/-- The transaction leaves the channel assigned to `pick`. -/
def Assignable (db : Database) (cid : Uuid) (reassign : Bool) (pick : Uuid) : Prop :=
  db.channels.contains cid = true ∧
    (reassign = true ∨ db.assignedTo cid = none ∨ db.assignedTo cid = some pick)

variable {db : Database} {now : Instant} {cid pick : Uuid} {reassign : Bool}

theorem assignedTo_doAssignTo_iff :
    ((db.doAssignTo cid pick reassign).1.channels.contains cid = true ∧
      (db.doAssignTo cid pick reassign).1.assignedTo cid = some pick) ↔
    Assignable db cid reassign pick := by
  rw [Database.doAssignTo_fst, Assignable]
  by_cases hWrites : reassign = true ∨ db.assignedTo cid = none
  · rw [if_pos hWrites, Database.assign]
    by_cases hChannel : db.channels.contains cid = true
    · rw [if_pos hChannel, Database.assignedTo_setAssigned, if_pos rfl]
      simp only [Database.setAssigned, TreeMap.contains_insert_self, true_and, hChannel, true_iff]
      exact hWrites.imp_right .inl
    · rw [if_neg hChannel]
      simp [hChannel]
  · rw [if_neg hWrites]
    rw [not_or] at hWrites
    simp [hWrites.1, hWrites.2]

/-- The transaction leaves the rows of the voice servers alone. -/
theorem getActive_doAssignTo (db : Database) (now : Instant) (cid pick : Uuid) (reassign : Bool)
    (id : Uuid) : (db.doAssignTo cid pick reassign).1.getActive now id = db.getActive now id := by
  rw [Database.getActive, Database.voiceServers_doAssignTo, Database.getActive]

/-- The answer is what was recorded exactly when the channel exists and may be
reassigned, is unassigned, or is assigned to the very server that was picked. -/
theorem records_iff (db : Database) (now : Instant) (cid : Uuid) (reassign : Bool) (pick : Uuid) :
    Records db now cid reassign pick ↔
      (db.isSmallestLoad now pick = true → Assignable db cid reassign pick) := by
  constructor
  · intro hRecords hPick
    have hActive : (db.getActive now pick).isSome = true :=
      Database.mem_candidates.mp (Database.isSmallestLoad_iff.mp hPick).1
    obtain ⟨v, hGet⟩ := Option.isSome_iff_exists.mp hActive
    have hRow : db.voiceServers[pick]? = some v := (Option.filter_eq_some_iff.mp hGet).1
    obtain ⟨hChannel, hTo, _⟩ := hRecords _ _ (assignChannel_of_pick hPick hRow)
    exact assignedTo_doAssignTo_iff.mp ⟨hChannel, hTo⟩
  · intro hAssignable db' srv hAssign
    obtain ⟨v, hPick, hRow, rfl, rfl⟩ := assignChannel_eq_ok hAssign
    obtain ⟨hChannel, hTo⟩ := assignedTo_doAssignTo_iff.mpr (hAssignable hPick)
    have hActive : (db.getActive now pick).isSome = true :=
      Database.mem_candidates.mp (Database.isSmallestLoad_iff.mp hPick).1
    obtain ⟨w, hGet⟩ := Option.isSome_iff_exists.mp hActive
    have hSame : w = v := by
      cases (Option.filter_eq_some_iff.mp hGet).1.symm.trans hRow
      rfl
    refine ⟨hChannel, hTo, ?_⟩
    rw [getChannel_of_assignedTo hTo, getActive_doAssignTo, hGet, hSame, Option.map_some]

/-- The channel 7 of the server 1, which has not been seen for 40 s, and the new server 2. -/
def staleAssignment : Database :=
  (((Database.empty.createChannel 7).createOrUpdate 0 1 "http://a/").assign 7 1).createOrUpdate
    40000 2 "http://b/"

theorem not_records :
    ¬ ∀ (db : Database) (now : Instant) (cid : Uuid) (reassign : Bool) (pick : Uuid) (db' : Database)
      (srv : VoiceServer),
      ChannelsImpl.assignChannel db now cid reassign pick = some (db', .ok srv) →
      db'.channels.contains cid = true ∧ db'.assignedTo cid = some srv.id ∧
        ChannelsImpl.getChannel db' now cid = some (some srv.hostUrl) := by
  intro h
  have hPick : staleAssignment.isSmallestLoad 40000 2 = true := by decide
  have hKept : (staleAssignment.doAssignTo 7 2 false).1.assignedTo 7 = some 1 := by decide
  obtain ⟨_, hTo, _⟩ := h staleAssignment 40000 7 false 2 _ _ (assignChannel_of_pick hPick rfl)
  exact absurd (hKept.symm.trans hTo) (by decide)

end ChannelsImpl

end Voices.Registry
