import Voices.Gateway.ChannelState
import Voices.Semantics.Broadcast
import Voices.Semantics.Replay

/-!
# A standalone channel and its sessions

`LocalChannelEvents` with the broadcast channel on which it sends, and what each
session has of it: a receiver from the time of its join, the members that it
listed after the join, and the events that it has received. A join subscribes,
then sends, and neither happens under the lock.
-/

namespace Voices.Gateway

open Semantics VoiceServer Std

/-- What a session has of its handle. `start` is where it was subscribed and `next` where its
receiver is, `present` the answer to its `list_members`. -/
structure Updates where
  start : Nat
  next : Nat
  present : Option (List ClientInfo)
  received : List ChannelEvent

/-- `tx` is all that was ever sent. -/
structure LocalChannelEvents where
  state : ChannelEvents
  tx : List ChannelEvent
  updates : TreeMap HandleId Updates

/-- What `ServerSession::handle_chan_event` sends to the client. -/
inductive ServerEvent where
  | joined (user : String) (sourceId : UInt32)
  | left (user : String) (sourceId : UInt32)
  deriving DecidableEq

def handleChanEvent (clientId : Uuid) (chanEvent : ChannelEvent) : Option ServerEvent :=
  if clientId = chanEvent.source then none
  else
    match chanEvent.kind with
    | .joined name => some (.joined name chanEvent.sourceId)
    | .left name => some (.left name chanEvent.sourceId)

def ServerEvent.update : ServerEvent → Replay.Update UInt32
  | .joined _ sourceId => .add sourceId
  | .left _ sourceId => .remove sourceId

def changes (clientId : Uuid) (events : List ChannelEvent) : List (Replay.Update UInt32) :=
  (events.filterMap (handleChanEvent clientId)).map ServerEvent.update

/-- The client leaves itself out of the members that it is told. -/
def others (info : ClientInfo) (present : List ClientInfo) : Finset UInt32 :=
  ((present.map ClientInfo.sourceId).filter (· ≠ info.sourceId)).toFinset

/-- The source ids that the client of a session knows of. -/
def view (info : ClientInfo) (present : List ClientInfo) (received : List ChannelEvent) :
    Finset UInt32 :=
  Replay.replay (others info present) (changes info.clientId received)

namespace LocalChannelEvents

/-- `state` is a step of a join, of the drop of a handle or of a leave. -/
inductive Event where
  | state (event : ChannelEvents.Event)
  | subscribe (handle : HandleId)
  | listMembers (handle : HandleId)
  | recv (handle : HandleId)
  deriving DecidableEq

def new (channelId : Uuid) : LocalChannelEvents := { state := .new channelId, tx := [], updates := ∅ }

def sent (outputs : List ChannelEvents.Output) : List ChannelEvent :=
  outputs.filterMap fun
    | .sent event => some event
    | _ => none

def advance (s : LocalChannelEvents) (e : ChannelEvents.Event) :
    Option (LocalChannelEvents × List ChannelEvents.Output) :=
  (s.state.step e).map fun next =>
    ({ s with state := next.1, tx := s.tx ++ sent next.2 }, next.2)

def setUpdates (s : LocalChannelEvents) (h : HandleId) (u : Updates) : LocalChannelEvents :=
  { s with updates := s.updates.insert h u }

/-- `slots` is the capacity of the broadcast channel. -/
def step (slots : Nat) (s : LocalChannelEvents) :
    Event → Option (LocalChannelEvents × List ChannelEvents.Output)
  | .state (.joined h) => if s.updates.contains h then s.advance (.joined h) else none
  | .state e => s.advance e
  | .subscribe h =>
    match s.state.handle h .joining, s.updates[h]? with
    | some _, none => some (s.setUpdates h ⟨s.tx.length, s.tx.length, none, []⟩, [])
    | _, _ => none
  | .listMembers h =>
    match s.state.handle h .live, s.updates[h]? with
    | some _, some u =>
      if u.present = none ∧ s.state.guard = none then
        some (s.setUpdates h { u with present := some s.state.listMembers }, [])
      else none
    | _, _ => none
  -- the session waits for events after its initialization
  | .recv h =>
    match s.state.handle h .live, s.updates[h]? with
    | some _, some u =>
      if u.present = none then none
      else
        match Broadcast.recv slots s.tx u.next with
        | .empty => none
        | .lagged next => some (s.setUpdates h { u with next }, [])
        | .item event next =>
          some (s.setUpdates h { u with next, received := u.received ++ [event] }, [])
    | _, _ => none

end LocalChannelEvents

end Voices.Gateway
