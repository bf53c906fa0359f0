import Voices.Registry.Database
import Voices.Semantics.Run

/-!
# The calls of the registry

`ChannelsImpl` answers one call after another from its database. A call reads
the clock once; the clock advances between the calls.
-/

namespace Voices.Registry

open Semantics VoiceServer Std

namespace Database

/-- `ChannelDb::do_assign_to`, with the row that it returns. -/
def doAssignTo (db : Database) (cid sid : Uuid) (reassign : Bool) : Database × Option ChannelDb :=
  match db.channels[cid]? with
  | none => (db, none)
  | some c =>
    if c.assignedTo.isSome && !reassign then (db, some c)
    else (db.assign cid sid, (db.assign cid sid).channels[cid]?)

/-- The rows that pass the filter of `get_smallest_load`. -/
def candidates (db : Database) (now : Instant) : List Uuid :=
  (db.voiceServers.toList.filter fun row => row.2.active now).map Prod.fst

/-- The ids that `VoiceServerDb::do_cleanup_stale` returns. -/
def staleIds (db : Database) (now : Instant) : List Uuid :=
  (db.voiceServers.toList.filter fun row => row.2.stale now).map Prod.fst

theorem doAssignTo_fst (db : Database) (cid sid : Uuid) (reassign : Bool) :
    (db.doAssignTo cid sid reassign).1 =
      if reassign = true ∨ db.assignedTo cid = none then db.assign cid sid else db := by
  rw [doAssignTo, assignedTo, assign]
  cases hRow : db.channels[cid]? with
  | none =>
    have hAbsent : db.channels.contains cid = false := by
      rw [TreeMap.contains_eq_isSome_getElem?, hRow, Option.isSome_none]
    simp [hAbsent]
  | some c => cases reassign <;> cases hTo : c.assignedTo <;> simp [hTo]

theorem voiceServers_doAssignTo (db : Database) (cid sid : Uuid) (reassign : Bool) :
    (db.doAssignTo cid sid reassign).1.voiceServers = db.voiceServers := by
  rw [doAssignTo_fst, assign]
  split
  · split <;> rfl
  · rfl

theorem mem_candidates {db : Database} {now : Instant} {id : Uuid} :
    id ∈ db.candidates now ↔ (db.getActive now id).isSome := by
  simp only [candidates, getActive, List.mem_map, List.mem_filter, Prod.exists,
    TreeMap.mem_toList_iff_getElem?_eq_some, exists_and_right, exists_eq_right]
  cases db.voiceServers[id]? with
  | none => simp
  | some v => simp [Option.isSome_filter]

theorem mem_staleIds {db : Database} {now : Instant} {id : Uuid} :
    id ∈ db.staleIds now ↔ db.isStale now id = true := by
  simp only [staleIds, isStale, List.mem_map, List.mem_filter, Prod.exists,
    TreeMap.mem_toList_iff_getElem?_eq_some, exists_and_right, exists_eq_right]
  cases db.voiceServers[id]? with
  | none => simp
  | some v => simp

theorem isSmallestLoad_iff {db : Database} {now : Instant} {id : Uuid} :
    db.isSmallestLoad now id = true ↔
      id ∈ db.candidates now ∧ ∀ other ∈ db.candidates now, db.load id ≤ db.load other := by
  rw [isSmallestLoad, Bool.and_eq_true, mem_candidates, List.all_eq_true]
  refine and_congr_right fun _ => ?_
  simp only [candidates, List.mem_map, List.mem_filter, Prod.forall, Prod.exists, Bool.or_eq_true,
    Bool.not_eq_true', decide_eq_true_eq, forall_exists_index, and_imp, exists_and_right,
    exists_eq_right]
  constructor
  · intro h other v hMem hActive
    exact (h other v hMem).resolve_left (by simp [hActive])
  · intro h other v hMem
    cases hActive : v.active now with
    | true => exact .inr (h other v hMem hActive)
    | false => exact .inl rfl

end Database

namespace ChannelsImpl

/-- `models::VoiceServer`. -/
structure VoiceServer where
  id : Uuid
  hostUrl : String
  lastSeen : Instant
  deriving DecidableEq

/-- `get_channel`: no channel, or the channel with the host that it is assigned to. -/
def getChannel (db : Database) (now : Instant) (cid : Uuid) : Option (Option String) :=
  db.channels[cid]?.map fun c =>
    c.assignedTo.bind fun id => (db.getActive now id).map VoiceServerDb.hostUrl

/-- `assign_channel`, where `pick` is the row that the database returns for `get_smallest_load`. -/
def assignChannel (db : Database) (now : Instant) (cid : Uuid) (reassign : Bool) (pick : Uuid) :
    Option (Database × Except String VoiceServer) :=
  if db.anyActive now then
    if db.isSmallestLoad now pick then
      db.voiceServers[pick]?.map fun v =>
        ((db.doAssignTo cid pick reassign).1,
          .ok { id := pick, hostUrl := v.hostUrl, lastSeen := v.lastSeen })
    else none
  else some (db, .error "no voice servers registered")

end ChannelsImpl

structure ChannelsImpl where
  now : Instant
  db : Database

namespace ChannelsImpl

inductive Event where
  | tick (millis : Nat)
  | createChannel (cid : Uuid)
  | registerVoiceServer (id : Uuid) (hostUrl : String)
  | cleanupStaleVoiceServers
  | getChannel (cid : Uuid)
  | assignChannel (cid : Uuid) (reassign : Bool) (pick : Uuid)
  | unassignChannel (sid cid : Uuid)
  deriving DecidableEq

/-- What a call returns, with the arguments that it answers. -/
inductive Reply where
  | registered (id : Uuid) (hostUrl : String) (validUntil : Instant)
  | deleted (ids : List Uuid)
  | channel (cid : Uuid) (host : Option (Option String))
  | assigned (cid : Uuid) (result : Except String VoiceServer)

def new : ChannelsImpl := { now := 0, db := .empty }

/-- Both branches of the upsert set `last_seen` to the current time. -/
def step (s : ChannelsImpl) : Event → Option (ChannelsImpl × List Reply)
  | .tick millis => some ({ s with now := s.now + millis }, [])
  | .createChannel cid =>
    if s.db.channels.contains cid then none else some ({ s with db := s.db.createChannel cid }, [])
  | .registerVoiceServer id hostUrl =>
    some ({ s with db := s.db.createOrUpdate s.now id hostUrl },
      [.registered id hostUrl (s.now + stalenessDuration)])
  | .cleanupStaleVoiceServers =>
    some ({ s with db := s.db.cleanupStale s.now }, [.deleted (s.db.staleIds s.now)])
  | .getChannel cid => some (s, [.channel cid (ChannelsImpl.getChannel s.db s.now cid)])
  | .assignChannel cid reassign pick =>
    (ChannelsImpl.assignChannel s.db s.now cid reassign pick).map fun result =>
      ({ s with db := result.1 }, [.assigned cid result.2])
  | .unassignChannel sid cid => some ({ s with db := s.db.unassign cid sid }, [])

theorem getChannel_of_assignedTo {db : Database} {now : Instant} {cid id : Uuid}
    (hAssigned : db.assignedTo cid = some id) :
    ChannelsImpl.getChannel db now cid = some ((db.getActive now id).map VoiceServerDb.hostUrl) := by
  obtain ⟨c, hChannel, hTo⟩ := Option.bind_eq_some_iff.mp hAssigned
  rw [ChannelsImpl.getChannel, hChannel, Option.map_some, hTo, Option.bind_some]

/-- `assign_channel` answers the row that the query picked, or leaves the database alone. -/
theorem assignChannel_cases {db db' : Database} {now : Instant} {cid pick : Uuid} {reassign : Bool}
    {result : Except String VoiceServer}
    (h : ChannelsImpl.assignChannel db now cid reassign pick = some (db', result)) :
    (∃ v, db.isSmallestLoad now pick = true ∧ db.voiceServers[pick]? = some v ∧
      db' = (db.doAssignTo cid pick reassign).1 ∧
      result = .ok { id := pick, hostUrl := v.hostUrl, lastSeen := v.lastSeen }) ∨
    (db' = db ∧ ∃ text, result = .error text) := by
  rw [ChannelsImpl.assignChannel] at h
  split at h
  · rw [Option.ite_none_right_eq_some] at h
    obtain ⟨hPick, h⟩ := h
    obtain ⟨v, hRow, hEq⟩ := Option.map_eq_some_iff.mp h
    cases hEq
    exact .inl ⟨v, hPick, hRow, rfl, rfl⟩
  · cases h
    exact .inr ⟨rfl, _, rfl⟩

theorem assignChannel_of_pick {db : Database} {now : Instant} {cid pick : Uuid} {reassign : Bool}
    {v : VoiceServerDb} (hPick : db.isSmallestLoad now pick = true) (hRow : db.voiceServers[pick]? = some v) :
    ChannelsImpl.assignChannel db now cid reassign pick =
      some ((db.doAssignTo cid pick reassign).1,
        .ok { id := pick, hostUrl := v.hostUrl, lastSeen := v.lastSeen }) := by
  have hAny : db.anyActive now = true := by
    have hCandidate : pick ∈ db.candidates now := (Database.isSmallestLoad_iff.mp hPick).1
    obtain ⟨row, hMem, _⟩ := List.mem_map.mp hCandidate
    exact List.any_eq_true.mpr ⟨row, List.mem_filter.mp hMem⟩
  rw [ChannelsImpl.assignChannel, if_pos hAny, if_pos hPick, hRow, Option.map_some]

theorem assignChannel_eq_ok {db db' : Database} {now : Instant} {cid pick : Uuid} {reassign : Bool}
    {srv : VoiceServer}
    (h : ChannelsImpl.assignChannel db now cid reassign pick = some (db', .ok srv)) :
    ∃ v, db.isSmallestLoad now pick = true ∧ db.voiceServers[pick]? = some v ∧
      db' = (db.doAssignTo cid pick reassign).1 ∧
      srv = { id := pick, hostUrl := v.hostUrl, lastSeen := v.lastSeen } := by
  obtain ⟨v, hPick, hRow, hDb, hEq⟩ | ⟨_, _, hEq⟩ := assignChannel_cases h
  · cases hEq
    exact ⟨v, hPick, hRow, hDb, rfl⟩
  · cases hEq

end ChannelsImpl

end Voices.Registry
