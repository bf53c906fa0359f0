import Voices.Registry.Database
import Voices.Semantics.Indexed
import Voices.Semantics.Run

/-!
# Hosting channels on voice servers

Gateways ask the registry for the voice server of a channel, and voice servers
start a forwarder for a channel that they are asked to host. The calls of
`get_voice_host_for` of all gateways, the queries that the registry executes for
them, the voice servers and their cleanup tasks take their steps in any order.
-/

namespace Voices.Registry

open Semantics VoiceServer Std

/-- A forwarder is in its event loop, has left it, or is gone. -/
inductive ForwarderState where
  | running
  | leaving
  | ended
  deriving DecidableEq

/-- `VoiceServerImpl`: the map of its channels, by the order in which forwarders were started, the
queue of its cleanup task, and the tasks that unassign channels at the registry. -/
structure VoiceServerImpl where
  url : String
  channels : TreeMap Uuid Nat
  forwarders : List (Uuid × ForwarderState)
  cleanup : List Uuid
  unassigning : List Uuid

inductive StatusError where
  | notFound
  | other
  deriving DecidableEq

namespace VoiceServerImpl

def forwarder (v : VoiceServerImpl) (id : Uuid) : Option ForwarderState :=
  v.channels[id]?.bind fun f => v.forwarders[f]?.map Prod.snd

/-- `get_channel`: the receiver of the channel's requests lives as long as its forwarder. -/
def healthy (v : VoiceServerImpl) (id : Uuid) : Bool :=
  match v.forwarder id with
  | some .running => true
  | some .leaving => true
  | _ => false

/-- `get_channel` with the request that follows: a forwarder that is leaving takes no request. -/
def status (v : VoiceServerImpl) (id : Uuid) : Except StatusError Unit :=
  match v.forwarder id with
  | some .running => .ok ()
  | some .leaving => .error .other
  | some .ended => .error .notFound
  | none => .error .notFound

/-- The vacant entry of `assign_channel`. -/
def startForwarder (v : VoiceServerImpl) (id : Uuid) : VoiceServerImpl :=
  { v with
    channels := v.channels.insert id v.forwarders.length
    forwarders := v.forwarders ++ [(id, .running)] }

/-- `ok` says whether a port is free and its socket can be bound. -/
def assignChannel (v : VoiceServerImpl) (id : Uuid) (ok : Bool) : VoiceServerImpl × Bool :=
  match v.channels[id]? with
  | some _ => (v, true)
  | none => if ok then (v.startForwarder id, true) else (v, false)

def setForwarder (v : VoiceServerImpl) (f : Nat) (id : Uuid) (state : ForwarderState) : VoiceServerImpl :=
  { v with forwarders := v.forwarders.set f (id, state) }

def leave (f : Nat) (v : VoiceServerImpl) (id : Uuid) : ForwarderState → Option VoiceServerImpl
  | .running => some (v.setForwarder f id .leaving)
  | _ => none

def notify (f : Nat) (v : VoiceServerImpl) (id : Uuid) : ForwarderState → Option VoiceServerImpl
  | .leaving => some { v.setForwarder f id .ended with cleanup := v.cleanup ++ [id] }
  | _ => none

/-- The task of the forwarder panics, and nobody is told. -/
def abort (f : Nat) (v : VoiceServerImpl) (id : Uuid) : ForwarderState → Option VoiceServerImpl
  | .ended => none
  | _ => some (v.setForwarder f id .ended)

def runs (v : VoiceServerImpl) (id : Uuid) : Bool := v.forwarders.contains (id, .running)

end VoiceServerImpl

/-- Where a call of `get_voice_host_for` is suspended: at a query of the registry's `get_channel`
or `assign_channel`, or at a request to a voice server. A result is an error, no channel, or a host. -/
inductive Phase where
  | getChannel
  | getActive (assignedTo : Uuid)
  | status (host : String)
  | lost (host : String)
  | smallestLoad
  | assignTo (server : Uuid) (host : String)
  | update (server : Uuid) (host : String)
  | assign (host : String)
  | done (result : Option (Option String))
  deriving DecidableEq

structure Call where
  channelId : Uuid
  reassign : Bool
  phase : Phase
  deriving DecidableEq

/-- The call asks a voice server to host its channel. -/
def Call.asksToHost (call : Call) : Bool :=
  match call.phase with
  | .lost _ => true
  | .assign _ => true
  | _ => false

/-- The server that the next query of the call writes into the row of its channel. -/
def Call.writes (call : Call) : Option Uuid :=
  match call.phase with
  | .update server _ => some server
  | _ => none

structure Hosting where
  now : Instant
  db : Database
  servers : TreeMap Uuid VoiceServerImpl
  calls : List Call

namespace Hosting

/-- `pick` is the server that the database returns for `get_smallest_load`. -/
inductive Event where
  | tick (millis : Nat)
  | createChannel (cid : Uuid)
  | serve (sid : Uuid) (url : String)
  | heartbeat (sid : Uuid)
  | cleanupStale
  | call (cid : Uuid)
  | reassign (call : Nat) (sid : Uuid)
  | query (call : Nat) (pick : Uuid)
  | request (call : Nat) (sid : Uuid) (ok : Bool)
  | fail (call : Nat)
  | leaving (sid : Uuid) (forwarder : Nat)
  | notified (sid : Uuid) (forwarder : Nat)
  | aborted (sid : Uuid) (forwarder : Nat)
  | cleanup (sid : Uuid)
  | unassign (sid : Uuid) (task : Nat)
  deriving DecidableEq

def new : Hosting := { now := 0, db := .empty, servers := ∅, calls := [] }

def setPhase (s : Hosting) (k : Nat) (call : Call) (phase : Phase) : Hosting :=
  { s with calls := s.calls.set k { call with phase } }

def setServer (s : Hosting) (sid : Uuid) (v : VoiceServerImpl) : Hosting :=
  { s with servers := s.servers.insert sid v }

/-- `ChannelDb::get` of `get_channel`. -/
def getChannel (s : Hosting) (k : Nat) (call : Call) : Hosting :=
  s.setPhase k call <|
    match s.db.channels[call.channelId]? with
    | none => .done (some none)
    | some row =>
      match row.assignedTo with
      | some id => .getActive id
      | none => .smallestLoad

/-- `VoiceServerDb::get_active` of `get_channel`, and what the gateway makes of the answer. -/
def getActive (s : Hosting) (k : Nat) (call : Call) (id : Uuid) : Hosting :=
  s.setPhase k call <|
    match s.db.getActive s.now id with
    | some v => if call.reassign then .smallestLoad else .status v.hostUrl
    | none => .smallestLoad

/-- `VoiceServerDb::get_smallest_load` of `assign_channel`. -/
def smallestLoad (s : Hosting) (k : Nat) (call : Call) (pick : Uuid) : Option Hosting :=
  if s.db.anyActive s.now then
    if s.db.isSmallestLoad s.now pick then
      s.db.voiceServers[pick]?.map fun v => s.setPhase k call (.assignTo pick v.hostUrl)
    else none
  else some (s.setPhase k call (.done none))

/-- The row that `ChannelDb::do_assign_to` reads. `assign_channel` answers the server that it
picked, whatever becomes of the row. -/
def assignTo (s : Hosting) (k : Nat) (call : Call) (server : Uuid) (host : String) : Hosting :=
  s.setPhase k call <|
    match s.db.channels[call.channelId]? with
    | none => .assign host
    | some row =>
      if row.assignedTo.isSome && !call.reassign then .assign host else .update server host

/-- The row that `ChannelDb::do_assign_to` writes; `assigned_to` references `voice_servers`. -/
def update (s : Hosting) (k : Nat) (call : Call) (server : Uuid) (host : String) : Hosting :=
  if s.db.voiceServers.contains server then
    { s.setPhase k call (.assign host) with db := s.db.assign call.channelId server }
  else s.setPhase k call (.done none)

def query (s : Hosting) (k : Nat) (call : Call) (pick : Uuid) : Option Hosting :=
  match call.phase with
  | .getChannel => some (s.getChannel k call)
  | .getActive id => some (s.getActive k call id)
  | .smallestLoad => s.smallestLoad k call pick
  | .assignTo server host => some (s.assignTo k call server host)
  | .update server host => some (s.update k call server host)
  | _ => none

/-- A voice server is asked to host the channel of a call. -/
def assignChannel (s : Hosting) (k : Nat) (call : Call) (sid : Uuid) (v : VoiceServerImpl) (ok : Bool)
    (host : String) : Hosting :=
  let (v, assigned) := v.assignChannel call.channelId ok
  (s.setServer sid v).setPhase k call (.done (if assigned then some (some host) else none))

def request (s : Hosting) (k : Nat) (call : Call) (sid : Uuid) (v : VoiceServerImpl) (ok : Bool) :
    Option Hosting :=
  match call.phase with
  | .status host =>
    if v.url = host then
      match v.status call.channelId with
      | .ok _ => some (s.setPhase k call (.done (some (some host))))
      | .error .notFound => some (s.setPhase k call (.lost host))
      | .error .other => some (s.setPhase k call (.done none))
    else none
  | .lost host => if v.url = host then some (s.assignChannel k call sid v ok host) else none
  | .assign host => if v.url = host then some (s.assignChannel k call sid v ok host) else none
  | _ => none

/-- The caller's host answers that it does not host the channel. -/
def reassign (s : Hosting) (call : Call) (v : VoiceServerImpl) : Option Hosting :=
  match call.phase with
  | .done (some (some host)) =>
    if v.url = host ∧ !v.healthy call.channelId then
      some { s with calls := s.calls ++ [⟨call.channelId, true, .getChannel⟩] }
    else none
  | _ => none

def forwarder (s : Hosting) (sid : Uuid) (f : Nat)
    (next : VoiceServerImpl → Uuid → ForwarderState → Option VoiceServerImpl) : Option Hosting :=
  s.servers[sid]?.bind fun v =>
    v.forwarders[f]?.bind fun forwarder =>
      (next v forwarder.1 forwarder.2).map fun v => s.setServer sid v

def next (s : Hosting) : Event → Option Hosting
  | .tick millis => some { s with now := s.now + millis }
  | .createChannel cid =>
    if s.db.channels.contains cid then none else some { s with db := s.db.createChannel cid }
  | .serve sid url =>
    if s.servers.contains sid then none
    else some (s.setServer sid { url, channels := ∅, forwarders := [], cleanup := [], unassigning := [] })
  | .heartbeat sid =>
    s.servers[sid]?.map fun v => { s with db := s.db.createOrUpdate s.now sid v.url }
  | .cleanupStale => some { s with db := s.db.cleanupStale s.now }
  | .call cid => some { s with calls := s.calls ++ [⟨cid, false, .getChannel⟩] }
  | .reassign k sid =>
    s.calls[k]?.bind fun call => s.servers[sid]?.bind fun v => s.reassign call v
  | .query k pick => s.calls[k]?.bind fun call => s.query k call pick
  | .request k sid ok =>
    s.calls[k]?.bind fun call => s.servers[sid]?.bind fun v => s.request k call sid v ok
  | .fail k =>
    s.calls[k]?.bind fun call =>
      match call.phase with
      | .done _ => none
      | _ => some (s.setPhase k call (.done none))
  | .leaving sid f => s.forwarder sid f (VoiceServerImpl.leave f)
  | .notified sid f => s.forwarder sid f (VoiceServerImpl.notify f)
  | .aborted sid f => s.forwarder sid f (VoiceServerImpl.abort f)
  | .cleanup sid =>
    s.servers[sid]?.bind fun v =>
      match v.cleanup with
      | id :: rest =>
        some (s.setServer sid { v with
          channels := v.channels.erase id, cleanup := rest, unassigning := v.unassigning ++ [id] })
      | [] => none
  | .unassign sid n =>
    s.servers[sid]?.bind fun v =>
      v.unassigning[n]?.map fun id =>
        { s.setServer sid { v with unassigning := v.unassigning.eraseIdx n } with
          db := s.db.unassign id sid }

/-- Nothing but the state is observed. -/
def step (s : Hosting) (e : Event) : Option (Hosting × List Empty) :=
  (s.next e).map fun s => (s, [])

def runs (s : Hosting) (sid cid : Uuid) : Bool :=
  match s.servers[sid]? with
  | some v => v.runs cid
  | none => false

end Hosting

end Voices.Registry
