import Mathlib.Logic.Function.Basic
import Voices.Gateway.Channels
import Voices.Semantics.Broadcast

/-!
# The event source of a distributed channel

Every `RedisChannelEvents` spawns a `RedisEventSource::run` that subscribes to
the channel at Redis and hands on what it receives. The task ends by itself when
a message finds no receiver and the last that found one is more than five seconds
ago. The instance is dropped from the channel map by the leave that empties it,
so that the two end by different rules.

What Redis sends to a source, and the source to the receivers of the instance, is
kept as the places of the events among all that was published.
-/

namespace Voices.Gateway

open Semantics VoiceServer Std

/-- How far `RedisEventSource::run` has come, with `last_delivered_msg`. -/
inductive EventSource where
  | connecting
  | subscribed (lastDeliveredMsg : Nat)
  | ended
  deriving DecidableEq

namespace EventSource

/-- `chrono::Duration::seconds(5)`, in milliseconds. -/
def patience : Nat := 5000

/-- The body of the loop, when the message is sent to some receiver or to none. -/
def deliver (now : Nat) (received : Bool) (lastDeliveredMsg : Nat) : EventSource :=
  if received then .subscribed now
  else if lastDeliveredMsg + patience < now then .ended
  else .subscribed lastDeliveredMsg

/-- The loop goes on without a receiver. -/
def Waits (now : Nat) : EventSource → Prop
  | .subscribed lastDeliveredMsg => now ≤ lastDeliveredMsg + patience
  | .connecting | .ended => True

instance (now : Nat) : (source : EventSource) → Decidable (source.Waits now)
  | .subscribed lastDeliveredMsg => inferInstanceAs (Decidable (now ≤ lastDeliveredMsg + patience))
  | .connecting | .ended => .isTrue trivial

theorem deliver_ne_ended_iff {now lastDeliveredMsg : Nat} {received : Bool} :
    deliver now received lastDeliveredMsg ≠ .ended ↔
      (received = false → (subscribed lastDeliveredMsg).Waits now) := by
  cases received <;> simp [deliver, Waits]

end EventSource

def EventSource.isSubscribed : EventSource → Bool
  | .subscribed _ => true
  | .connecting | .ended => false

/-- The source of an instance and its broadcast channel. `inbox` is what Redis has sent to the source and
it has not read, `tx` all that was ever sent on the channel. An event stands there by its place in the
order of all that was published. -/
structure Feed where
  source : EventSource
  inbox : List Nat
  tx : List Nat

/-- The receiver of a handle, with its place in `tx`. `joinedAt` is how many events were published when
`join` returned. -/
structure Receiver where
  state : StateId
  handle : HandleId
  joinedAt : Option Nat
  next : Nat
  received : List Nat
  deriving DecidableEq

/-- The channels of a gateway whose states are `RedisChannelEvents`, with what was published at Redis,
by whichever gateway, and the receivers of the broadcast channels. -/
structure RedisChannels (V : Type) where
  channels : Channels V
  feeds : StateId → Feed
  receivers : List Receiver
  published : List (Uuid × ChannelEvent)
  now : Nat

namespace RedisChannels

variable {V : Type}

/-- `subscribe` is `ChatRoomJoined::new` in a join, and `fail` an error of Redis later in it, by
which the handle is dropped. The events that the sessions of this gateway publish are among those of
`publish`. -/
inductive Event (V : Type) where
  | channels (event : Channels.Event V)
  | connect (state : StateId) (ok : Bool)
  | subscribe (state : StateId) (handle : HandleId)
  | fail (state : StateId) (handle : HandleId)
  | publish (id : Uuid) (event : ChannelEvent)
  | message (state : StateId)
  | recv (state : StateId) (handle : HandleId)
  | elapse (ms : Nat)
  deriving DecidableEq

def new : RedisChannels V :=
  { channels := .new, feeds := fun _ => ⟨.connecting, [], []⟩, receivers := [], published := [], now := 0 }

def setFeed (s : RedisChannels V) (i : StateId) (feed : Feed) : RedisChannels V :=
  { s with feeds := Function.update s.feeds i feed }

def channelOf (s : RedisChannels V) (i : StateId) : Option Uuid :=
  s.channels.states[i]?.map ChannelEvents.channelId

def advance (s : RedisChannels V) (e : Channels.Event V) :
    Option (RedisChannels V × List (Channels.Output V)) :=
  (s.channels.step e).map fun next => ({ s with channels := next.1 }, next.2)

/-- The handle `h` of the state `i`, while it is being made. -/
def joining (s : RedisChannels V) (i : StateId) (h : HandleId) :
    Option (ChannelEvents × ChatRoomJoined) :=
  s.channels.states[i]?.bind fun events => (events.handle h .joining).map (events, ·)

/-- Some handle of `i` has its receiver. -/
def listening (s : RedisChannels V) (i : StateId) : Bool := s.receivers.any fun r => r.state == i

def receiver (s : RedisChannels V) (i : StateId) (h : HandleId) : Option Receiver :=
  s.receivers.find? fun r => r.state == i && r.handle == h

/-- `join` returns the handle with its receiver. -/
def join (s : RedisChannels V) (i : StateId) (h : HandleId) : RedisChannels V :=
  { s with receivers := s.receivers.map fun r =>
      if r.state = i ∧ r.handle = h then { r with joinedAt := some s.published.length } else r }

/-- The handle is dropped with its receiver. -/
def forget (s : RedisChannels V) (i : StateId) (h : HandleId) : RedisChannels V :=
  { s with receivers := s.receivers.filter fun r => ! (r.state == i && r.handle == h) }

/-- Redis sends an event to the connections that are subscribed to its channel. -/
def publish (s : RedisChannels V) (id : Uuid) (event : ChannelEvent) : RedisChannels V :=
  { s with
    published := s.published ++ [(id, event)]
    feeds := fun i =>
      if s.channelOf i = some id ∧ (s.feeds i).source.isSubscribed = true then
        { s.feeds i with inbox := (s.feeds i).inbox ++ [s.published.length] }
      else s.feeds i }

/-- The body of the loop of `RedisEventSource::run`. A source that ends drops its connection. -/
def message (s : RedisChannels V) (i : StateId) (lastDeliveredMsg n : Nat) (inbox : List Nat) :
    RedisChannels V :=
  let source := EventSource.deliver s.now (s.listening i) lastDeliveredMsg
  s.setFeed i {
    source
    inbox := if source = .ended then [] else inbox
    tx := if s.listening i then (s.feeds i).tx ++ [n] else (s.feeds i).tx }

def setReceiver (s : RedisChannels V) (r r' : Receiver) : RedisChannels V :=
  { s with receivers := s.receivers.map fun q => if q = r then r' else q }

/-- `slots` is the capacity of the broadcast channels. -/
def step (slots : Nat) (s : RedisChannels V) :
    Event V → Option (RedisChannels V × List (Channels.Output V))
  | .channels (.joined i h) =>
    if (s.receiver i h).isSome then
      (s.advance (.joined i h)).map fun next => (next.1.join i h, next.2)
    else none
  | .channels (.drop i h) => (s.advance (.drop i h)).map fun next => (next.1.forget i h, next.2)
  | .channels e => s.advance e
  | .connect i ok =>
    if i < s.channels.states.length ∧ (s.feeds i).source = .connecting then
      some (s.setFeed i { s.feeds i with source := if ok then .subscribed s.now else .ended }, [])
    else none
  | .subscribe i h =>
    match s.joining i h with
    | some _ =>
      if (s.receiver i h).isSome then none
      else some ({ s with receivers := s.receivers ++ [⟨i, h, none, (s.feeds i).tx.length, []⟩] }, [])
    | none => none
  | .fail i h =>
    match s.joining i h with
    | some (events, j) =>
      if (s.receiver i h).isSome then
        let states := s.channels.states.set i (events.setStage h j .dropped)
        some ({ s with channels := { s.channels with states } }.forget i h, [])
      else none
    | none => none
  | .publish id event => some (s.publish id event, [])
  | .message i =>
    match (s.feeds i).source, (s.feeds i).inbox with
    | .subscribed lastDeliveredMsg, n :: inbox => some (s.message i lastDeliveredMsg n inbox, [])
    | _, _ => none
  | .recv i h =>
    match s.receiver i h with
    | some r =>
      match Broadcast.recv slots (s.feeds i).tx r.next with
      | .empty => none
      | .lagged next => some (s.setReceiver r { r with next }, [])
      | .item n next => some (s.setReceiver r { r with next, received := r.received ++ [n] }, [])
    | none => none
  | .elapse ms => some ({ s with now := s.now + ms }, [])

/-- The state has not been closed. -/
def Open (s : Channels V) (i : StateId) : Prop :=
  ∃ events ∈ s.states[i]?, events.locallyPresent.live = true

/-- The state is stored in the map and has not been closed, so that `get_or_init` gives it out. -/
def Given (s : Channels V) (i : StateId) : Prop :=
  (∃ entry ∈ s.channelMap.toList, entry.2.state = i) ∧ Open s i

instance (s : Channels V) (i : StateId) : Decidable (Open s i) :=
  inferInstanceAs (Decidable (∃ events ∈ s.states[i]?, events.locallyPresent.live = true))

instance (s : Channels V) (i : StateId) : Decidable (Given s i) :=
  inferInstanceAs (Decidable ((∃ entry ∈ s.channelMap.toList, entry.2.state = i) ∧ Open s i))

/-- An event that was published after the join. -/
def awaits (r : Receiver) (n : Nat) : Bool := r.joinedAt.any fun joinedAt => joinedAt ≤ n

/-- The places of the events of a channel. -/
def publishedOn (published : List (Uuid × ChannelEvent)) (id : Option Uuid) : List Nat :=
  published.zipIdx.filterMap fun entry => if some entry.1.1 = id then some entry.2 else none

/-- What the receiver has got and will get of what was published after the join is all of it, in order. -/
def Served (r : Receiver) (feed : Feed) (published : List Nat) : Prop :=
  (r.received ++ (feed.tx.drop r.next ++ feed.inbox)).filter (awaits r) = published.filter (awaits r)

/-- The source of an instance has not ended, and the clients that have joined get its events. -/
structure Kept (s : RedisChannels V) (i : StateId) : Prop where
  source : (s.feeds i).source ≠ .ended
  served : ∀ r ∈ s.receivers, r.state = i → Served r (s.feeds i) (publishedOn s.published (s.channelOf i))

def KeepsSources (s : RedisChannels V) : Prop := ∀ i, Given s.channels i → s.Kept i

/-- The room that a call of `get_or_init` is about to store, when there is none yet. -/
def stores (s : Channels V) (k : CallId) : Option (Channel V) :=
  s.calls[k]?.bind fun call =>
    match call.phase with
    | .inserting room => if s.channelMap[call.id]?.isNone then some room else none
    | _ => none

/-- The events that a receiver passes over because it has fallen behind, of those after the join. -/
def skipped (slots : Nat) (s : RedisChannels V) (i : StateId) (h : HandleId) : List Nat :=
  match s.receiver i h with
  | some r =>
    match Broadcast.recv slots (s.feeds i).tx r.next with
    | .lagged next => (((s.feeds i).tx.drop r.next).take (next - r.next)).filter (awaits r)
    | _ => []
  | none => []

/-- Of the states that are given out: no source fails to subscribe, or gets a message without a receiver
more than five seconds after the last delivery; nothing is published that a client awaits before the source
has subscribed, and no client falls so far behind that it misses something. And no state is stored whose
source has ended. -/
def Attended (slots : Nat) (s : RedisChannels V) : Event V → Prop
  | .connect i ok => Given s.channels i → ok = true
  | .message i => Given s.channels i → s.listening i = false → (s.feeds i).source.Waits s.now
  | .publish id _ => ∀ r ∈ s.receivers, r.joinedAt.isSome = true → s.channelOf r.state = some id →
    Given s.channels r.state → (s.feeds r.state).source.isSubscribed = true
  | .recv i h => Given s.channels i → skipped slots s i h = []
  | .channels (.insert k) =>
    ∀ room ∈ stores s.channels k, Open s.channels room.state → (s.feeds room.state).source ≠ .ended
  | _ => True

section Given

variable {c c' : Channels V} {e : Channels.Event V} {o : List (Channels.Output V)} {i : StateId}

theorem given_iff :
    Given c i ↔
      (∃ (id : Uuid) (ch : Channel V), c.channelMap[id]? = some ch ∧ ch.state = i) ∧ Open c i := by
  simp only [Given, Prod.exists, TreeMap.mem_toList_iff_getElem?_eq_some]

theorem stores_eq_some_iff {k : CallId} {room : Channel V} :
    stores c k = some room ↔ ∃ call, c.calls[k]? = some call ∧ call.phase = .inserting room ∧
      c.channelMap[call.id]? = none := by
  simp only [stores, Option.bind_eq_some_iff]
  constructor
  · rintro ⟨call, hCall, hRoom⟩
    split at hRoom
    · rename_i found hPhase
      simp only [Option.isNone_iff_eq_none, Option.ite_none_right_eq_some, Option.some.injEq] at hRoom
      obtain ⟨hVacant, rfl⟩ := hRoom
      exact ⟨call, hCall, hPhase, hVacant⟩
    · cases hRoom
  · rintro ⟨call, hCall, hPhase, hVacant⟩
    exact ⟨call, hCall, by simp [hPhase, hVacant]⟩

theorem live_before {events events' : ChannelEvents} {event : ChannelEvents.Event}
    {output : List ChannelEvents.Output} (hEffect : events.Effect event events' output)
    (hLive : events'.locallyPresent.live = true) : events.locallyPresent.live = true := by
  cases hEffect with
  | entered info hGuard hOpen => exact hOpen
  | refused | joined | dropped | closed => exact hLive
  | emptied h j hHandle hStage hGuard hEmpty => simp [LocallyPresent.leave_live, hEmpty] at hLive
  | left h j hHandle hStage hGuard hOthers =>
    have hNotEmpty : ¬ ∀ id info, events.locallyPresent.inner[id]? = some info → id = j.info.clientId :=
      fun hAll => by simp [LocallyPresent.leave_empty_iff.mpr hAll] at hOthers
    push Not at hNotEmpty
    obtain ⟨id, info, hInfo, _⟩ := hNotEmpty
    exact LocallyPresent.live_of_mem hInfo

theorem open_set {n : StateId} {events events' : ChannelEvents} (hState : c.states[n]? = some events)
    (hLive : events'.locallyPresent.live = true → events.locallyPresent.live = true)
    (hOpen : Open { c with states := c.states.set n events' } i) : Open c i := by
  obtain ⟨ev, hEv, hEvLive⟩ := hOpen
  rcases (getElem?_set_iff hState).mp hEv with ⟨rfl, rfl⟩ | ⟨_, hOld⟩
  · exact ⟨events, hState, hLive hEvLive⟩
  · exact ⟨ev, hOld, hEvLive⟩

theorem open_make (id : Uuid) (voice : V) (hOpen : Open (c.make id voice).2 i) :
    Open c i ∨ c.states.length ≤ i := by
  obtain ⟨ev, hEv, hLive⟩ := hOpen
  rcases getElem?_snoc_iff.mp hEv with hOld | ⟨rfl, _⟩
  · exact .inl ⟨ev, hOld, hLive⟩
  · exact .inr (Nat.le_refl _)

/-- A state that is given out after a step was given out before it, is new, or was stored by it. -/
theorem given_before (hEffect : c.Effect e c' o) (hGiven : Given c' i) :
    Given c i ∨ c.states.length ≤ i ∨
      ∃ k room, e = .insert k ∧ stores c k = some room ∧ room.state = i ∧ Open c i := by
  obtain ⟨⟨id, ch, hMap, hCh⟩, hOpen⟩ := given_iff.mp hGiven
  have hSame (hOpen : Open c i) (hMap : c.channelMap[id]? = some ch) : Given c i :=
    given_iff.mpr ⟨⟨id, ch, hMap, hCh⟩, hOpen⟩
  cases hEffect with
  | found | asked | resumed | failed | existing | locked | unlocked => exact .inl (hSame hOpen hMap)
  | made k call voice hCall hPhase =>
    exact (open_make call.id voice hOpen).imp (fun hOld => hSame hOld hMap) .inl
  | inserted k call room hLock hCall hPhase hVacant =>
    rcases lookup_insert_iff.mp hMap with ⟨rfl, rfl⟩ | ⟨_, hOld⟩
    · exact .inr (.inr ⟨k, ch, rfl, stores_eq_some_iff.mpr ⟨call, hCall, hPhase, hVacant⟩, hCh, hOpen⟩)
    · exact .inl (hSame hOpen hOld)
  | revoiced k call chan voice hLock hCall hPhase hFound =>
    rcases lookup_insert_iff.mp hMap with ⟨rfl, rfl⟩ | ⟨_, hOld⟩
    · exact .inl (given_iff.mpr ⟨⟨call.id, chan, hFound, hCh⟩, hOpen⟩)
    · exact .inl (hSame hOpen hOld)
  | created k call voice hLock hCall hPhase =>
    rcases open_make call.id voice hOpen with hOldOpen | hNew
    · rcases lookup_insert_iff.mp hMap with ⟨rfl, rfl⟩ | ⟨_, hOld⟩
      · exact .inr (.inl (Nat.le_of_eq hCh))
      · exact .inl (hSame hOldOpen hOld)
    · exact .inr (.inl hNew)
  | joined n info channel events events' output hChannel hState hEffect =>
    exact .inl (hSame (open_set hState (live_before hEffect) hOpen) hMap)
  | stepped e n h events events' event output hEvent hState hEffect =>
    exact .inl (hSame (open_set hState (live_before hEffect) hOpen) hMap)
  | closed n h events events' output hLock hState hEffect =>
    exact .inl (hSame (open_set hState (live_before hEffect) hOpen) (lookup_erase_iff.mp hMap).2)

/-- A call that finds no entry stores its room. -/
theorem given_stores {k : CallId} {room : Channel V} (hStep : c.step (.insert k) = some (c', o))
    (hStores : stores c k = some room) (hOpen : Open c room.state) : Given c' room.state := by
  obtain ⟨call, hCall, hPhase, hVacant⟩ := stores_eq_some_iff.mp hStores
  simp only [Channels.step, hCall, hPhase, Channels.unlocked_eq_some_iff, Channels.insert,
    hVacant] at hStep
  obtain ⟨_, hNext⟩ := hStep
  cases hNext
  refine given_iff.mpr ⟨⟨call.id, room, ?_, rfl⟩, hOpen⟩
  exact TreeMap.getElem?_insert_self

theorem map_channelId_set {n : StateId} {events events' : ChannelEvents}
    (hState : c.states[n]? = some events) (hSame : events'.channelId = events.channelId) :
    (c.states.set n events')[i]?.map ChannelEvents.channelId = c.states[i]?.map ChannelEvents.channelId := by
  by_cases hEq : i = n
  · subst hEq
    rw [getElem?_set_here hState, hState]
    exact congrArg some hSame
  · rw [List.getElem?_set_ne (Ne.symm hEq)]

/-- A state keeps its channel. -/
theorem map_channelId (hEffect : c.Effect e c' o) (hMade : i < c.states.length) :
    c'.states[i]?.map ChannelEvents.channelId = c.states[i]?.map ChannelEvents.channelId := by
  have hSame {events events' : ChannelEvents} {event : ChannelEvents.Event}
      {output : List ChannelEvents.Output} (hEffect : events.Effect event events' output) :
      events'.channelId = events.channelId := by
    cases hEffect <;> rfl
  have hSnoc (new : ChannelEvents) : (c.states ++ [new])[i]? = c.states[i]? :=
    List.getElem?_append_left hMade
  cases hEffect with
  | made k call | created k call => exact congrArg (Option.map ChannelEvents.channelId) (hSnoc (.new call.id))
  | joined n info channel events events' output hChannel hState hEffect =>
    exact map_channelId_set hState (hSame hEffect)
  | stepped e n h events events' event output hEvent hState hEffect =>
    exact map_channelId_set hState (hSame hEffect)
  | closed n h events events' output hLock hState hEffect =>
    exact map_channelId_set hState (hSame hEffect)
  | _ => rfl

theorem states_length_le (hEffect : c.Effect e c' o) : c.states.length ≤ c'.states.length := by
  cases hEffect <;> simp [Channels.answered, Channels.setPhase, Channels.make]

end Given

end RedisChannels

end Voices.Gateway
