import Voices.Semantics.Indexed
import Voices.Semantics.Run
import Voices.VoiceServer.Connection
import Std.Data.TreeMap

/-!
# The channels of a voice server

`VoiceServerImpl` with its ports, its map of channels and the task that cleans up
after forwarders, together with the forwarders themselves as far as the server
depends on them. A call of `assign_channel` keeps the write lock of the map while
`Channel::new` binds the socket; a forwarder that ends leaves its loop, tells the
cleanup task, and drops its socket, one after the other.
-/

namespace Voices.VoiceServer

open Semantics Std

structure Ports where
  start : UInt16
  state : List Bool

/-- The flag `taken` is named by its index in `Ports::state`. -/
structure PortRef where
  port : UInt16
  taken : Nat
  deriving DecidableEq

namespace Ports

def new (start limit : UInt16) : Ports := { start, state := List.replicate limit.toNat true }

def ref (p : Ports) (i : Nat) : PortRef := { port := i.toUInt16 + p.start, taken := i }

def get (p : Ports) : Option (Ports × PortRef) :=
  (p.state.findIdx? id).map fun i => ({ p with state := p.state.set i false }, p.ref i)

def release (p : Ports) (r : PortRef) : Ports := { p with state := p.state.set r.taken true }

end Ports

/-- How far the task of a forwarder has come: it is in the loop of `run`, has left it, has sent its
end notification, or is gone with its socket and the receiver of its requests. An aborted one has
panicked in the loop. -/
inductive Stage where
  | looping
  | leaving
  | notified
  | dropped
  | aborted
  deriving DecidableEq

def Stage.gone (s : Stage) : Bool := s = .dropped || s = .aborted

/-- What `Channel::new` has set up: the forwarder, the voice tasks that share its socket, the port,
and the clones of the `Channel` that callers hold. -/
structure Room where
  roomId : Uuid
  port : PortRef
  stage : Stage
  tasks : Nat
  clones : Nat
  deriving DecidableEq

def Room.healthy (r : Room) : Bool := !r.stage.gone

/-- Somebody still has the socket. -/
def Room.bound (r : Room) : Bool := !r.stage.gone || 0 < r.tasks

/-- The code sends the id alone. -/
structure EndNotify where
  roomId : Uuid
  sender : Nat
  deriving DecidableEq

/-- `channels` leads to the rooms in the order of their construction. `constructing` is the call of
`assign_channel` that has the write lock, `removing` what the cleanup task has received last. -/
structure Server where
  ports : Ports
  channels : TreeMap Uuid Nat
  rooms : List Room
  constructing : Option (Uuid × PortRef)
  notifications : List EndNotify
  removing : Option EndNotify

namespace Server

/-- `constructed` is the end of `Channel::new`, or of the call that awaits it; `ok` says whether the
socket could be bound. -/
inductive Event where
  | assign (id : Uuid)
  | constructed (ok : Bool)
  | get (id : Uuid)
  | dropClone (room : Nat)
  | opened (room : Nat)
  | taskEnded (room : Nat)
  | leave (room : Nat)
  | notify (room : Nat)
  | finish (room : Nat)
  | abort (room : Nat)
  | receive
  | remove
  deriving DecidableEq

inductive Output where
  | allocated (port : PortRef)
  | assigned (id : Uuid) (room : Option Nat)
  | got (id : Uuid) (room : Option Nat)
  | removed (id : Uuid) (room : Option Nat)
  deriving DecidableEq

def cleanupCapacity : Nat := 10

def new (ports : Ports) : Server :=
  { ports, channels := ∅, rooms := [], constructing := none, notifications := [], removing := none }

def setRoom (s : Server) (i : Nat) (r : Room) : Server := { s with rooms := s.rooms.set i r }

/-- The map or a caller has a `Channel` of the room. -/
def handled (s : Server) (i : Nat) (r : Room) : Bool :=
  0 < r.clones || s.channels[r.roomId]? = some i

/-- `PortRef` is dropped with the last handle of its channel. -/
def handleDropped (s : Server) (i : Nat) (r : Room) : Server :=
  if s.handled i r then s else { s with ports := s.ports.release r.port }

/-- The system refuses a port on which a socket of this server is open. -/
def refuses (s : Server) (port : UInt16) : Bool := s.rooms.any fun r => r.port.port == port && r.bound

def assignChannel (s : Server) (id : Uuid) : Option (Server × List Output) :=
  match s.channels[id]? with
  | some i =>
    s.rooms[i]?.map fun r => (s.setRoom i { r with clones := r.clones + 1 }, [.assigned id (some i)])
  | none =>
    match s.ports.get with
    | some (ports, port) => some ({ s with ports, constructing := some (id, port) }, [.allocated port])
    | none => some (s, [.assigned id none])

/-- `Channel::new` returns the channel, which is put into the map and cloned for the caller. -/
def construct (s : Server) (id : Uuid) (port : PortRef) : Server :=
  { s with
    channels := s.channels.insert id s.rooms.length
    rooms := s.rooms ++ [{ roomId := id, port, stage := .looping, tasks := 0, clones := 1 }]
    constructing := none }

def getChannel (s : Server) (id : Uuid) : Option (Server × List Output) :=
  match s.channels[id]? with
  | some i =>
    s.rooms[i]?.map fun r =>
      if r.healthy then (s.setRoom i { r with clones := r.clones + 1 }, [.got id (some i)])
      else (s, [.got id none])
  | none => some (s, [.got id none])

/-- The removed handle is dropped under the lock. -/
def removeChannel (s : Server) (id : Uuid) : Server × List Output :=
  let erased : Server := { s with channels := s.channels.erase id, removing := none }
  match s.channels[id]? with
  | some i =>
    match s.rooms[i]? with
    | some r => (erased.handleDropped i r, [.removed id (some i)])
    | none => (erased, [.removed id (some i)])
  | none => (erased, [.removed id none])

def endNotify (s : Server) (i : Nat) (r : Room) : Server :=
  { s with
    rooms := s.rooms.set i { r with stage := .notified }
    notifications := s.notifications ++ [⟨r.roomId, i⟩] }

/-- Nobody holds the write lock over an await. -/
def unlocked (s : Server) (next : Option (Server × List Output)) : Option (Server × List Output) :=
  if s.constructing = none then next else none

/-- A room in one of the given stages goes on. -/
def roomStep (s : Server) (i : Nat) (enabled : Room → Bool) (next : Room → Room) :
    Option (Server × List Output) :=
  match s.rooms[i]? with
  | some r => if enabled r then some (s.setRoom i (next r), []) else none
  | none => none

def step (s : Server) : Event → Option (Server × List Output)
  | .assign id => s.unlocked (s.assignChannel id)
  | .constructed ok =>
    match s.constructing with
    | some (id, port) =>
      if ok then
        if s.refuses port.port then none
        else some (s.construct id port, [.assigned id (some s.rooms.length)])
      else
        some ({ s with ports := s.ports.release port, constructing := none }, [.assigned id none])
    | none => none
  | .get id => s.unlocked (s.getChannel id)
  | .dropClone i =>
    match s.rooms[i]? with
    | some r =>
      if 0 < r.clones then
        let left : Room := { r with clones := r.clones - 1 }
        some ((s.setRoom i left).handleDropped i left, [])
      else none
    | none => none
  | .opened i => s.roomStep i (·.stage = .looping) fun r => { r with tasks := r.tasks + 1 }
  | .taskEnded i => s.roomStep i (0 < ·.tasks) fun r => { r with tasks := r.tasks - 1 }
  -- the idle timeout, or the end of the stream of requests
  | .leave i => s.roomStep i (fun r => r.stage = .looping && (r.tasks = 0 || !s.handled i r)) fun r =>
      { r with stage := .leaving }
  | .notify i =>
    match s.rooms[i]? with
    | some r =>
      if r.stage = .leaving ∧ s.notifications.length < cleanupCapacity then
        some (s.endNotify i r, [])
      else none
    | none => none
  | .finish i => s.roomStep i (·.stage = .notified) fun r => { r with stage := .dropped }
  | .abort i => s.roomStep i (·.stage = .looping) fun r => { r with stage := .aborted }
  | .receive =>
    match s.removing, s.notifications with
    | none, n :: rest => some ({ s with notifications := rest, removing := some n }, [])
    | _, _ => none
  | .remove =>
    match s.removing with
    | some n => s.unlocked (some (s.removeChannel n.roomId))
    | none => none

end Server

end Voices.VoiceServer
