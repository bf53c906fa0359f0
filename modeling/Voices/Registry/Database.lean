import Std.Data.TreeMap
import Voices.VoiceServer.Connection

/-!
# The registry of channels and voice servers

The tables `channels` and `voice_servers` and the queries of `db_models` on
them. Only the columns that hosting depends on are kept. Times are in
milliseconds, and one clock serves the service and its database.
-/

namespace Voices.Registry

open VoiceServer Std

structure VoiceServerDb where
  hostUrl : String
  lastSeen : Instant
  deriving DecidableEq

structure ChannelDb where
  assignedTo : Option Uuid
  deriving DecidableEq

structure Database where
  channels : TreeMap Uuid ChannelDb
  voiceServers : TreeMap Uuid VoiceServerDb

def stalenessDuration : Nat := 35000

namespace VoiceServerDb

def active (v : VoiceServerDb) (now : Instant) : Bool := now < v.lastSeen + stalenessDuration

def stale (v : VoiceServerDb) (now : Instant) : Bool := v.lastSeen + stalenessDuration < now

end VoiceServerDb

namespace Database

def empty : Database := { channels := ∅, voiceServers := ∅ }

def assignedTo (db : Database) (cid : Uuid) : Option Uuid :=
  db.channels[cid]?.bind ChannelDb.assignedTo

def getActive (db : Database) (now : Instant) (id : Uuid) : Option VoiceServerDb :=
  db.voiceServers[id]?.filter fun v => v.active now

def load (db : Database) (id : Uuid) : Nat :=
  (db.channels.toList.filter fun row => row.2.assignedTo == some id).length

/-- The rows that `get_smallest_load` may return: servers with the same load have no order. -/
def isSmallestLoad (db : Database) (now : Instant) (id : Uuid) : Bool :=
  (db.getActive now id).isSome &&
    db.voiceServers.toList.all fun row => !row.2.active now || db.load id ≤ db.load row.1

def anyActive (db : Database) (now : Instant) : Bool :=
  db.voiceServers.toList.any fun row => row.2.active now

def setAssigned (db : Database) (cid : Uuid) (assigned : Option Uuid) : Database :=
  { db with channels := db.channels.insert cid { assignedTo := assigned } }

def createChannel (db : Database) (cid : Uuid) : Database := db.setAssigned cid none

/-- The `UPDATE` of `ChannelDb::do_assign_to`. -/
def assign (db : Database) (cid sid : Uuid) : Database :=
  if db.channels.contains cid then db.setAssigned cid (some sid) else db

def unassign (db : Database) (cid sid : Uuid) : Database :=
  if db.assignedTo cid = some sid then db.setAssigned cid none else db

/-- `NewVoiceServer::create_or_update`: a row that is there keeps its host. -/
def createOrUpdate (db : Database) (now : Instant) (id : Uuid) (hostUrl : String) : Database :=
  let row : VoiceServerDb :=
    match db.voiceServers[id]? with
    | some v => { v with lastSeen := now }
    | none => { hostUrl, lastSeen := now }
  { db with voiceServers := db.voiceServers.insert id row }

def isStale (db : Database) (now : Instant) (id : Uuid) : Bool :=
  match db.voiceServers[id]? with
  | some v => v.stale now
  | none => false

/-- `VoiceServerDb::cleanup_stale`; `assigned_to` is `ON DELETE SET NULL`. -/
def cleanupStale (db : Database) (now : Instant) : Database where
  channels := db.channels.map fun _ c =>
    { assignedTo := c.assignedTo.filter fun id => !db.isStale now id }
  voiceServers := db.voiceServers.filter fun _ v => !v.stale now

theorem assignedTo_setAssigned (db : Database) (cid : Uuid) (assigned : Option Uuid) (other : Uuid) :
    (db.setAssigned cid assigned).assignedTo other =
      if cid = other then assigned else db.assignedTo other := by
  by_cases hEq : cid = other <;> simp [setAssigned, assignedTo, TreeMap.getElem?_insert, hEq]

theorem assignedTo_assign (db : Database) (cid sid other : Uuid) :
    (db.assign cid sid).assignedTo other = db.assignedTo other ∨
      (cid = other ∧ (db.assign cid sid).assignedTo other = some sid) := by
  unfold assign
  split
  · rw [assignedTo_setAssigned]
    by_cases hEq : cid = other <;> simp [hEq]
  · exact .inl rfl

theorem assignedTo_unassign (db : Database) (cid sid other : Uuid) :
    (db.unassign cid sid).assignedTo other =
      if cid = other ∧ db.assignedTo cid = some sid then none else db.assignedTo other := by
  unfold unassign
  by_cases hAssigned : db.assignedTo cid = some sid
  · simp [hAssigned, assignedTo_setAssigned]
  · simp [hAssigned]

@[simp] theorem assignedTo_createOrUpdate (db : Database) (now : Instant) (id : Uuid) (hostUrl : String)
    (cid : Uuid) : (db.createOrUpdate now id hostUrl).assignedTo cid = db.assignedTo cid := rfl

theorem assignedTo_cleanupStale (db : Database) (now : Instant) (cid : Uuid) :
    (db.cleanupStale now).assignedTo cid =
      (db.assignedTo cid).filter fun id => !db.isStale now id := by
  simp only [assignedTo, cleanupStale, TreeMap.getElem?_map]
  cases db.channels[cid]? <;> rfl

end Database

end Voices.Registry
