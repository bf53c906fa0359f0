import Voices.Gateway.EventSource
import Voices.Gateway.LocalChannel
import Voices.Semantics.Announce

/-!
# A channel distributed over Redis

`RedisChannelEvents` on any number of gateways, all of one channel: the hash of
the members at Redis, the instances with what Redis has sent to their sources, and
the handles of the sessions. A join subscribes to the broadcast channel of its
instance, enters its client into the hash and publishes the event; a leave publishes
its event before it takes its client out of the hash. Redis executes these commands
one at a time and none fails. A session may join any instance that is not closed,
which leaves open how the gateways give them out.
-/

namespace Voices.Gateway

open Semantics VoiceServer Std

/-- An instance. `inbox` is what Redis has sent to the source and it has not read, `tx` all that
was ever sent on the broadcast channel. -/
structure RedisChannelEvents where
  locallyPresent : LocallyPresent
  source : EventSource
  inbox : List ChannelEvent
  tx : List ChannelEvent

/-- How far `join`, and later `leave`, have come for a handle: it is `subscribed` by
`ChatRoomJoined::new`, `entered` by `hset_multiple`, `live` from the publication of its join on,
`leaving` when it is out of `locally_present`, `parted` by the publication of its leave and `left`
by `hdel`. -/
inductive RoomStage where
  | joining
  | subscribed
  | entered
  | live
  | dropped
  | leaving
  | parted
  | left
  deriving DecidableEq

/-- The handle has its receiver. -/
def RoomStage.receiving : RoomStage → Bool
  | .subscribed | .entered | .live => true
  | .joining | .dropped | .leaving | .parted | .left => false

structure RoomHandle where
  info : ClientInfo
  state : StateId
  stage : RoomStage
  updates : Updates

structure DistributedChannel where
  members : TreeMap Uuid ClientInfo
  states : List RedisChannelEvents
  handles : List RoomHandle
  now : Nat

theorem EventSource.deliver_eq_ended {now lastDeliveredMsg : Nat} {received : Bool}
    (hSource : (deliver now received lastDeliveredMsg).isSubscribed = false) :
    deliver now received lastDeliveredMsg = .ended := by
  cases received with
  | true => cases hSource
  | false =>
    by_cases hLate : lastDeliveredMsg + patience < now
    · simp [deliver, hLate]
    · simp [deliver, hLate, isSubscribed] at hSource

namespace RedisChannelEvents

def new : RedisChannelEvents :=
  { locallyPresent := .new, source := .connecting, inbox := [], tx := [] }

/-- Redis sends a published event to the connections that are subscribed. -/
def publish (event : ChannelEvent) (r : RedisChannelEvents) : RedisChannelEvents :=
  if r.source.isSubscribed then { r with inbox := r.inbox ++ [event] } else r

/-- All that a session of the instance has received and will receive of what has been published. -/
def log (r : RedisChannelEvents) (u : Updates) : List ChannelEvent := r.tx.drop u.start ++ r.inbox

end RedisChannelEvents

namespace DistributedChannel

inductive Event where
  | init
  | connect (state : StateId)
  | message (state : StateId)
  | elapse (ms : Nat)
  | join (state : StateId) (info : ClientInfo)
  | subscribe (handle : HandleId)
  | hset (handle : HandleId)
  | publishJoined (handle : HandleId)
  | hgetall (handle : HandleId)
  | recv (handle : HandleId)
  | drop (handle : HandleId)
  | leave (handle : HandleId)
  | publishLeft (handle : HandleId)
  | hdel (handle : HandleId)
  deriving DecidableEq

def new : DistributedChannel := { members := ∅, states := [], handles := [], now := 0 }

def setState (s : DistributedChannel) (i : StateId) (r : RedisChannelEvents) : DistributedChannel :=
  { s with states := s.states.set i r }

def setHandle (s : DistributedChannel) (h : HandleId) (j : RoomHandle) : DistributedChannel :=
  { s with handles := s.handles.set h j }

def handle (s : DistributedChannel) (h : HandleId) (stage : RoomStage) : Option RoomHandle :=
  s.handles[h]?.filter fun j => j.stage == stage

def publish (s : DistributedChannel) (event : ChannelEvent) : DistributedChannel :=
  { s with states := s.states.map (.publish event) }

def listening (s : DistributedChannel) (i : StateId) : Bool :=
  s.handles.any fun j => j.state == i && j.stage.receiving

def listMembers (s : DistributedChannel) : List ClientInfo := s.members.toList.map Prod.snd

/-- The body of the loop of `RedisEventSource::run`. A source that ends drops its connection. -/
def message (s : DistributedChannel) (i : StateId) (r : RedisChannelEvents) (lastDeliveredMsg : Nat)
    (event : ChannelEvent) (inbox : List ChannelEvent) : DistributedChannel :=
  let source := EventSource.deliver s.now (s.listening i) lastDeliveredMsg
  s.setState i { r with
    source
    inbox := if source = .ended then [] else inbox
    tx := if s.listening i then r.tx ++ [event] else r.tx }

/-- `slots` is the capacity of the broadcast channels, and the outputs are what is published. -/
def step (slots : Nat) (s : DistributedChannel) :
    Event → Option (DistributedChannel × List ChannelEvent)
  | .init => some ({ s with states := s.states ++ [.new] }, [])
  | .connect i =>
    match s.states[i]? with
    | some r =>
      if r.source = .connecting then some (s.setState i { r with source := .subscribed s.now }, [])
      else none
    | none => none
  | .message i =>
    match s.states[i]? with
    | some r =>
      match r.source, r.inbox with
      | .subscribed lastDeliveredMsg, event :: inbox =>
        some (s.message i r lastDeliveredMsg event inbox, [])
      | _, _ => none
    | none => none
  | .elapse ms => some ({ s with now := s.now + ms }, [])
  | .join i info =>
    match s.states[i]? with
    | some r =>
      let (locallyPresent, ok) := r.locallyPresent.join info
      if ok then
        let s := s.setState i { r with locallyPresent }
        some ({ s with handles := s.handles ++ [⟨info, i, .joining, ⟨0, 0, none, []⟩⟩] }, [])
      else some (s, [])
    | none => none
  | .subscribe h =>
    match s.handle h .joining with
    | some j =>
      s.states[j.state]?.map fun r =>
        (s.setHandle h { j with
          stage := .subscribed, updates := ⟨r.tx.length, r.tx.length, none, []⟩ }, [])
    | none => none
  | .hset h =>
    (s.handle h .subscribed).map fun j =>
      ({ s.setHandle h { j with stage := .entered } with
          members := s.members.insert j.info.clientId j.info }, [])
  | .publishJoined h =>
    (s.handle h .entered).map fun j =>
      ((s.setHandle h { j with stage := .live }).publish (.joined j.info), [.joined j.info])
  | .hgetall h =>
    match s.handle h .live with
    | some j =>
      if j.updates.present = none then
        let updates := { j.updates with present := some s.listMembers }
        some (s.setHandle h { j with updates }, [])
      else none
    | none => none
  -- the session waits for events after its initialization
  | .recv h =>
    match s.handle h .live with
    | some j =>
      if j.updates.present = none then none
      else
        s.states[j.state]?.bind fun r =>
          match Broadcast.recv slots r.tx j.updates.next with
          | .empty => none
          | .lagged next => some (s.setHandle h { j with updates := { j.updates with next } }, [])
          | .item event next =>
            let updates := { j.updates with next, received := j.updates.received ++ [event] }
            some (s.setHandle h { j with updates }, [])
    | none => none
  | .drop h => (s.handle h .live).map fun j => (s.setHandle h { j with stage := .dropped }, [])
  | .leave h =>
    match s.handle h .dropped with
    | some j =>
      s.states[j.state]?.map fun r =>
        let locallyPresent := (r.locallyPresent.leave j.info.clientId).1
        ((s.setState j.state { r with locallyPresent }).setHandle h { j with stage := .leaving }, [])
    | none => none
  | .publishLeft h =>
    (s.handle h .leaving).map fun j =>
      ((s.setHandle h { j with stage := .parted }).publish (.left j.info), [.left j.info])
  | .hdel h =>
    (s.handle h .parted).map fun j =>
      ({ s.setHandle h { j with stage := .left } with
          members := s.members.erase j.info.clientId }, [])

variable {s s' : DistributedChannel} {h : HandleId} {j : RoomHandle} {stage : RoomStage}
  {o : List ChannelEvent}

theorem handle_eq_some_iff :
    s.handle h stage = some j ↔ s.handles[h]? = some j ∧ j.stage = stage := by
  simp [handle, Option.filter_eq_some_iff]

/-- The steps of a handle that always go on. -/
theorem map_handle_eq_some {next : RoomHandle → DistributedChannel × List ChannelEvent}
    (hStep : (s.handle h stage).map next = some (s', o)) :
    ∃ j, s.handles[h]? = some j ∧ j.stage = stage ∧ next j = (s', o) := by
  obtain ⟨j, hHandle, hNext⟩ := Option.map_eq_some_iff.mp hStep
  obtain ⟨hHandle, hStage⟩ := handle_eq_some_iff.mp hHandle
  exact ⟨j, hHandle, hStage, hNext⟩

end DistributedChannel

end Voices.Gateway
