import Voices.Gateway.Announcements

/-!
# What a session knows of a distributed channel

A session is right about every client whose last announcement it gets, and about the
others when its snapshot of the hash agrees. It misses announcements when its source
is not subscribed, and its snapshot has a client too many when the leave of the
client was published, but for this session too early.
-/

namespace Voices.Gateway

open Semantics VoiceServer Std

/-- The other clients that a session knows of. Like `handle_chan_event` it passes over its own
events. -/
def roster (info : ClientInfo) (present : List ClientInfo) (received : List ChannelEvent) :
    Finset Uuid :=
  Replay.replay ((clientIds present).erase info.clientId)
    ((announcements received).filter fun u => u.member ≠ info.clientId)

theorem mem_roster_iff {info : ClientInfo} {present : List ClientInfo} {received : List ChannelEvent}
    {x : Uuid} :
    x ∈ roster info present received ↔
      x ≠ info.clientId ∧ x ∈ Replay.replay (clientIds present) (announcements received) := by
  by_cases hOwn : x = info.clientId
  · subst hOwn
    have hUntouched : ¬ Replay.Touched
        ((announcements received).filter fun u => u.member ≠ info.clientId) info.clientId := by
      rintro ⟨u, hMem, hEq⟩
      simp [hEq] at hMem
    rw [roster, Replay.mem_replay_of_untouched hUntouched]
    simp
  · rw [roster, Replay.mem_replay_filter hOwn]
    by_cases hTouched : Replay.Touched (announcements received) x
    · rw [Replay.mem_replay_of_touched hTouched (clientIds present)]
      simp [hOwn]
    · rw [Replay.mem_replay_of_untouched hTouched, Replay.mem_replay_of_untouched hTouched]
      simp [hOwn]

namespace DistributedChannel

/-- The invariant of a run that has published `published`. -/
structure Right (s : DistributedChannel) (published : List ChannelEvent) : Prop where
  once : Once s.handles
  placed : ∀ j ∈ s.handles, j.state < s.states.length
  recorded : Replay.Recorded (status s.handles) (announcements published)
  listed : ∀ x, x ∈ s.members ↔ (status s.handles x).listed
  keyed : ∀ (x : Uuid) (m : ClientInfo), s.members[x]? = some m → m.clientId = x
  inbox : ∀ (i : StateId) (r : RedisChannelEvents), s.states[i]? = some r →
    r.inbox <:+ published ∧ (r.source.isSubscribed = false → r.inbox = [])
  follows : ∀ (h : HandleId) (j : RoomHandle) (r : RedisChannelEvents), s.handles[h]? = some j →
    j.stage.receiving = true → s.states[j.state]? = some r →
      Follows (status s.handles) published j.info j.updates r

theorem Right.new : DistributedChannel.new.Right [] where
  once g h d j hLookup := by cases hLookup
  placed j hMem := by cases hMem
  recorded := Replay.Recorded.nil
  listed x := by simp [DistributedChannel.new, status, Replay.Status.listed]
  keyed x m hMember := by simp [DistributedChannel.new] at hMember
  inbox i r hState := by cases hState
  follows h j r hHandle := by cases hHandle

variable {s s' : DistributedChannel} {published o : List ChannelEvent} {h : HandleId} {j : RoomHandle}
  {slots : Nat} {e : Event}

/-- A step of an instance that its sessions do not see. -/
theorem Right.setState (hRight : s.Right published) {i : StateId} {r r' : RedisChannelEvents}
    (hState : s.states[i]? = some r)
    (hInbox : r'.inbox <:+ published ∧ (r'.source.isSubscribed = false → r'.inbox = []))
    (hFollows : ∀ (h : HandleId) (j : RoomHandle), s.handles[h]? = some j →
      j.stage.receiving = true → j.state = i →
      Follows (status s.handles) published j.info j.updates r →
      Follows (status s.handles) published j.info j.updates r') :
    (s.setState i r').Right published where
  once := hRight.once
  placed := by simpa [DistributedChannel.setState] using hRight.placed
  recorded := hRight.recorded
  listed := hRight.listed
  keyed := hRight.keyed
  inbox n q hLookup := by
    rcases (getElem?_set_iff hState).mp hLookup with ⟨rfl, rfl⟩ | ⟨_, hOld⟩
    · exact hInbox
    · exact hRight.inbox n q hOld
  follows h j q hHandle hReceiving hLookup := by
    rcases (getElem?_set_iff hState).mp hLookup with ⟨hEq, rfl⟩ | ⟨_, hOld⟩
    · exact hFollows h j hHandle hReceiving hEq
        (hRight.follows h j r hHandle hReceiving (by rw [hEq, hState]))
    · exact hRight.follows h j q hHandle hReceiving hOld

/-- A step of a session that the others do not see. -/
theorem Right.setHandle (hRight : s.Right published) (hHandle : s.handles[h]? = some j)
    {j' : RoomHandle} (hInfo : j'.info = j.info) (hState : j'.state = j.state)
    (hStatus : j'.stage.status = j.stage.status)
    (hFollows : j'.stage.receiving = true → ∀ r, s.states[j.state]? = some r →
      Follows (status s.handles) published j.info j'.updates r) :
    (s.setHandle h j').Right published := by
  have hSame : status (s.handles.set h j') = status s.handles := by
    rw [hRight.once.status_set hHandle hInfo, hStatus, ← hRight.once.status hHandle,
      Function.update_eq_self]
  refine ⟨hRight.once.set hHandle hInfo, ?_, ?_, ?_, hRight.keyed, hRight.inbox, ?_⟩
  · intro d hMem
    rcases List.mem_or_eq_of_mem_set hMem with hOld | rfl
    · exact hRight.placed d hOld
    · rw [hState]
      exact hRight.placed j (List.mem_of_getElem? hHandle)
  · simpa only [DistributedChannel.setHandle, hSame] using hRight.recorded
  · simpa only [DistributedChannel.setHandle, hSame] using hRight.listed
  · intro g d r hLookup hReceiving hR
    simp only [DistributedChannel.setHandle, hSame]
    rcases (getElem?_set_iff hHandle).mp hLookup with ⟨rfl, rfl⟩ | ⟨_, hOld⟩
    · rw [hInfo]
      exact hFollows hReceiving r (by rw [← hState]; exact hR)
    · exact hRight.follows g d r hOld hReceiving hR

theorem receiving_before {handles : List RoomHandle} (hHandle : handles[h]? = some j) {stage : RoomStage}
    (hReceiving : stage.receiving = true → j.stage.receiving = true) {g : HandleId} {d : RoomHandle}
    (hLookup : (handles.set h { j with stage })[g]? = some d) (hD : d.stage.receiving = true) :
    ∃ d', handles[g]? = some d' ∧ d'.stage.receiving = true ∧ d'.info = d.info ∧
      d'.state = d.state ∧ d'.updates = d.updates := by
  rcases (getElem?_set_iff hHandle).mp hLookup with ⟨rfl, rfl⟩ | ⟨_, hOld⟩
  · exact ⟨j, hHandle, hReceiving hD, rfl, rfl, rfl⟩
  · exact ⟨d, hOld, hD, rfl, rfl, rfl⟩

theorem placed_set {handles : List RoomHandle} {n : Nat} (hPlaced : ∀ j ∈ handles, j.state < n)
    (hHandle : handles[h]? = some j) (stage : RoomStage) :
    ∀ d ∈ handles.set h { j with stage }, d.state < n := by
  intro d hMem
  rcases List.mem_or_eq_of_mem_set hMem with hOld | rfl
  · exact hPlaced d hOld
  · exact hPlaced j (List.mem_of_getElem? hHandle)

/-- A client is entered into the hash or taken out of it. -/
theorem Right.move (hRight : s.Right published) (hHandle : s.handles[h]? = some j) {stage : RoomStage}
    (hReceiving : stage.receiving = true → j.stage.receiving = true)
    (hMove : (j.stage.status = .absent ∧ stage.status = .stored) ∨
      (j.stage.status = .withdrawn ∧ stage.status = .erased))
    (members : TreeMap Uuid ClientInfo)
    (hListed : ∀ x, x ∈ members ↔ if x = j.info.clientId then stage.status.listed else x ∈ s.members)
    (hKeyed : ∀ (x : Uuid) (m : ClientInfo), members[x]? = some m → m.clientId = x) :
    Right { s.setHandle h { j with stage } with members } published := by
  have hSet : status (s.handles.set h { j with stage }) =
      Function.update (status s.handles) j.info.clientId stage.status :=
    hRight.once.status_set hHandle rfl
  have hOld := hRight.once.status hHandle
  refine ⟨hRight.once.set hHandle rfl, placed_set hRight.placed hHandle stage, ?_, ?_, hKeyed,
    hRight.inbox, ?_⟩
  · show Replay.Recorded (status (s.handles.set h { j with stage })) _
    rw [hSet]
    rcases hMove with ⟨hAbsent, hStored⟩ | ⟨hWithdrawn, hErased⟩
    · rw [hStored]
      exact hRight.recorded.store (hOld.trans hAbsent)
    · rw [hErased]
      exact hRight.recorded.erase (hOld.trans hWithdrawn)
  · intro x
    show x ∈ members ↔ (status (s.handles.set h { j with stage }) x).listed
    rw [hSet, hListed]
    by_cases hEq : x = j.info.clientId
    · rw [if_pos hEq, hEq, Function.update_self]
    · rw [if_neg hEq, Function.update_of_ne hEq]
      exact hRight.listed x
  · intro g d r hLookup hD hState
    obtain ⟨d', hLookup', hD', hInfo, hPlace, hUpdates⟩ := receiving_before hHandle hReceiving hLookup hD
    show Follows (status (s.handles.set h { j with stage })) _ _ _ _
    rw [hSet, ← hInfo, ← hUpdates]
    refine (hRight.follows g d' r hLookup' hD' (hPlace ▸ hState)).congr fun present _ x _ hAgrees => ?_
    by_cases hEq : x = j.info.clientId
    · subst hEq
      refine hAgrees.move ?_ ?_
      · rw [hOld]
        exact hMove.imp And.left And.left
      · rw [Function.update_self]
        exact hMove.imp And.right And.right
    · exact hAgrees.congr (Function.update_of_ne hEq _ _)

/-- An event is published, and reaches the sessions that it is of concern to. -/
theorem Right.publish (hRight : s.Right published) (hHandle : s.handles[h]? = some j)
    {stage : RoomStage} (hReceiving : stage.receiving = true → j.stage.receiving = true)
    {event : ChannelEvent} (hSource : event.source = j.info.clientId)
    (hStatus : stage.status = event.update.status) (hListed : j.stage.status.listed)
    (hReaches : ∀ d ∈ s.handles, d.stage.receiving = true → ∀ r ∈ s.states[d.state]?,
      ∀ present ∈ d.updates.present, r.source.isSubscribed = true ∨
        (event.update.status = .announced ∧ event.source ∈ clientIds present)) :
    ((s.setHandle h { j with stage }).publish event).Right (published ++ [event]) := by
  have hSet : status (s.handles.set h { j with stage }) =
      Function.update (status s.handles) event.source event.update.status := by
    rw [hSource, ← hStatus]
    exact hRight.once.status_set hHandle rfl
  have hBefore {i : StateId} {r : RedisChannelEvents}
      (hState : (s.states.map (.publish event))[i]? = some r) :
      ∃ r', s.states[i]? = some r' ∧ r = r'.publish event := by
    rw [List.getElem?_map, Option.map_eq_some_iff] at hState
    obtain ⟨r', hState, rfl⟩ := hState
    exact ⟨r', hState, rfl⟩
  refine ⟨hRight.once.set hHandle rfl, ?_, ?_, ?_, hRight.keyed, ?_, ?_⟩
  · show ∀ d ∈ s.handles.set h { j with stage },
      d.state < (s.states.map (RedisChannelEvents.publish event)).length
    rw [List.length_map]
    exact placed_set hRight.placed hHandle stage
  · show Replay.Recorded (status (s.handles.set h { j with stage })) _
    rw [hSet, announcements, List.map_append, List.map_singleton, ← event.update_member]
    exact hRight.recorded.publish event.update
  · intro x
    show x ∈ s.members ↔ (status (s.handles.set h { j with stage }) x).listed
    rw [hSet, hRight.listed]
    by_cases hEq : x = event.source
    · rw [hEq, Function.update_self, hSource, hRight.once.status hHandle]
      refine iff_of_true hListed ?_
      cases event.update <;> trivial
    · rw [Function.update_of_ne hEq]
  · intro i r hState
    obtain ⟨r', hOld, rfl⟩ := hBefore hState
    obtain ⟨hSuffix, hSilent⟩ := hRight.inbox i r' hOld
    cases hSubscribed : r'.source.isSubscribed with
    | true =>
      simp only [RedisChannelEvents.publish, hSubscribed, if_true]
      exact ⟨List.suffix_concat_iff.mpr (.inr ⟨_, rfl, hSuffix⟩), fun hNot => by simp at hNot⟩
    | false =>
      simp only [RedisChannelEvents.publish, hSubscribed, Bool.false_eq_true, if_false]
      rw [hSilent hSubscribed]
      exact ⟨List.nil_suffix, fun _ => rfl⟩
  · intro g d r hLookup hD hState
    obtain ⟨r', hOld, rfl⟩ := hBefore hState
    obtain ⟨d', hLookup', hD', hInfo, hPlace, hUpdates⟩ := receiving_before hHandle hReceiving hLookup hD
    show Follows (status (s.handles.set h { j with stage })) _ _ _ _
    rw [hSet, ← hInfo, ← hUpdates]
    rw [← hPlace] at hOld
    refine (hRight.follows g d' r' hLookup' hD' hOld).publish event fun present hPresent _ => ?_
    exact hReaches d' (List.mem_of_getElem? hLookup') hD' r' hOld present hPresent

theorem Right.message (hRight : s.Right published) {i : StateId} {r : RedisChannelEvents}
    (hState : s.states[i]? = some r) (last : Nat) {event : ChannelEvent} {inbox : List ChannelEvent}
    (hInbox : r.inbox = event :: inbox) :
    (s.message i r last event inbox).Right published := by
  obtain ⟨hSuffix, _⟩ := hRight.inbox i r hState
  have hRest : inbox <:+ published := (hInbox ▸ List.suffix_cons event inbox).trans hSuffix
  unfold DistributedChannel.message
  cases hListening : s.listening i with
  | true =>
    have hDeliver : EventSource.deliver s.now true last = .subscribed s.now := rfl
    rw [hDeliver]
    refine hRight.setState hState ⟨hRest, fun hNot => by cases hNot⟩ fun h j _ _ _ hFollows => ?_
    exact hFollows.deliver hInbox _ rfl
  | false =>
    refine hRight.setState hState ⟨?_, ?_⟩ fun h j hHandle hReceiving hEq => ?_
    · show (if EventSource.deliver s.now false last = .ended then [] else inbox) <:+ published
      split
      · exact List.nil_suffix
      · exact hRest
    · exact fun hNot => if_pos (EventSource.deliver_eq_ended hNot)
    · have hNone := List.any_eq_false.mp hListening j (List.mem_of_getElem? hHandle)
      simp [hEq, hReceiving] at hNone

theorem Right.init (hRight : s.Right published) :
    Right { s with states := s.states ++ [.new] } published where
  once := hRight.once
  placed j hMem := by
    rw [List.length_append]
    exact Nat.lt_add_right _ (hRight.placed j hMem)
  recorded := hRight.recorded
  listed := hRight.listed
  keyed := hRight.keyed
  inbox i r hState := by
    rcases getElem?_snoc_iff.mp hState with hOld | ⟨_, rfl⟩
    · exact hRight.inbox i r hOld
    · exact ⟨List.nil_suffix, fun _ => rfl⟩
  follows h j r hHandle hReceiving hState := by
    rcases getElem?_snoc_iff.mp hState with hOld | ⟨hEnd, _⟩
    · exact hRight.follows h j r hHandle hReceiving hOld
    · exact absurd hEnd (Nat.ne_of_lt (hRight.placed j (List.mem_of_getElem? hHandle)))

theorem Right.setPresent (hRight : s.Right published) {i : StateId} {r : RedisChannelEvents}
    (hState : s.states[i]? = some r) (locallyPresent : LocallyPresent) :
    (s.setState i { r with locallyPresent }).Right published :=
  hRight.setState hState (hRight.inbox i r hState)
    fun _ _ _ _ _ hFollows => ⟨hFollows.exact, hFollows.log, hFollows.silent, hFollows.agrees⟩

theorem Right.enter (hRight : s.Right published) {info : ClientInfo} {i : StateId}
    (hNew : ∀ d ∈ s.handles, d.info.clientId ≠ info.clientId) (hPlaced : i < s.states.length)
    (updates : Updates) :
    Right { s with handles := s.handles ++ [⟨info, i, .joining, updates⟩] } published := by
  have hSame : status (s.handles ++ [⟨info, i, .joining, updates⟩]) = status s.handles :=
    status_snoc rfl
  refine ⟨hRight.once.snoc hNew, ?_, hSame ▸ hRight.recorded, hSame ▸ hRight.listed, hRight.keyed,
    hRight.inbox, ?_⟩
  · intro d hMem
    rcases List.mem_append.mp hMem with hOld | hLast
    · exact hRight.placed d hOld
    · cases List.mem_singleton.mp hLast
      exact hPlaced
  · intro h j r hHandle hReceiving hState
    rcases getElem?_snoc_iff.mp hHandle with hOld | ⟨_, rfl⟩
    · rw [hSame]
      exact hRight.follows h j r hOld hReceiving hState
    · cases hReceiving

theorem Right.mem_clientIds_iff (hRight : s.Right published) {x : Uuid} :
    x ∈ clientIds s.listMembers ↔ (status s.handles x).listed := by
  rw [← hRight.listed, TreeMap.mem_iff_isSome_getElem?, Option.isSome_iff_exists]
  simp only [clientIds, listMembers, List.mem_toFinset, List.mem_map, Prod.exists,
    TreeMap.mem_toList_iff_getElem?_eq_some]
  constructor
  · rintro ⟨m, ⟨id, m', hMember, rfl⟩, rfl⟩
    exact ⟨m', by rwa [hRight.keyed id m' hMember]⟩
  · rintro ⟨m, hMember⟩
    exact ⟨m, ⟨x, m, hMember, rfl⟩, hRight.keyed x m hMember⟩

/-- A snapshot is right when the session still gets the leave of every client that is yet to be
taken out of the hash. -/
theorem Right.snapshot (hRight : s.Right published) {info : ClientInfo} {u : Updates}
    {r : RedisChannelEvents} (hFollows : Follows (status s.handles) published info u r)
    (hAhead : ∀ d ∈ s.handles, d.stage = .parted → .left d.info ∈ r.log u) :
    Follows (status s.handles) published info { u with present := some s.listMembers } r := by
  refine ⟨⟨hFollows.exact.start_le, hFollows.exact.next_le, hFollows.exact.received⟩, hFollows.log,
    hFollows.silent, ?_⟩
  intro present hPresent x _
  cases hPresent
  refine .snapshot hRight.mem_clientIds_iff fun hWithdrawn => ?_
  obtain ⟨g, d, hLookup, rfl, hStatus⟩ :=
    hRight.once.exists_of_status (x := x) (by simp [hWithdrawn])
  have hParted : d.stage = .parted := by
    rw [hWithdrawn] at hStatus
    cases hStage : d.stage with
    | parted => rfl
    | _ => simp [hStage, RoomStage.status] at hStatus
  exact ⟨.remove d.info.clientId,
    List.mem_map.mpr ⟨_, hAhead d (List.mem_of_getElem? hLookup) hParted, rfl⟩, rfl⟩

/-- Clients are distinct and each joins once. -/
def JoinsOnce (s : DistributedChannel) : Event → Prop
  | .join _ info => ∀ d ∈ s.handles, d.info.clientId ≠ info.clientId
  | _ => True

/-- What is published reaches every session that has its snapshot, unless it is the join of a
client that the snapshot has. Of the clients in a snapshot whose leave has been published, the
session still gets the leave. -/
def Timely (s : DistributedChannel) : Event → Prop
  | .publishJoined h => ∀ j ∈ s.handles[h]?, ∀ d ∈ s.handles, d.stage.receiving = true →
      ∀ r ∈ s.states[d.state]?, ∀ present ∈ d.updates.present,
        r.source.isSubscribed = true ∨ j.info.clientId ∈ clientIds present
  | .publishLeft _ => ∀ d ∈ s.handles, d.stage.receiving = true →
      ∀ r ∈ s.states[d.state]?, ∀ _present ∈ d.updates.present, r.source.isSubscribed = true
  | .hgetall h => ∀ j ∈ s.handles[h]?, ∀ r ∈ s.states[j.state]?,
      ∀ d ∈ s.handles, d.stage = .parted → .left d.info ∈ r.log j.updates
  | _ => True

/-- No receiver lags behind the buffer. -/
def KeepsUp (slots : Nat) (s : DistributedChannel) : Event → Prop
  | .recv h => ∀ j ∈ s.handles[h]?, ∀ r ∈ s.states[j.state]?,
      r.tx.length ≤ j.updates.next + slots
  | _ => True

theorem Right.hgetall (hRight : s.Right published) (hTimely : s.Timely (.hgetall h))
    (hStep : s.step slots (.hgetall h) = some (s', o)) : s'.Right (published ++ o) := by
  simp only [DistributedChannel.step] at hStep
  split at hStep
  · rename_i j hHandle
    obtain ⟨hHandle, hLive⟩ := handle_eq_some_iff.mp hHandle
    split at hStep <;> cases hStep
    rw [List.append_nil]
    refine hRight.setHandle hHandle rfl rfl rfl fun _ r hState => ?_
    have hFollows := hRight.follows h j r hHandle (by simp [hLive, RoomStage.receiving]) hState
    exact hRight.snapshot hFollows (hTimely j hHandle r hState)
  · cases hStep

theorem Right.recv (hRight : s.Right published) (hKeepsUp : s.KeepsUp slots (.recv h))
    (hStep : s.step slots (.recv h) = some (s', o)) : s'.Right (published ++ o) := by
  simp only [DistributedChannel.step] at hStep
  split at hStep
  · rename_i j hHandle
    obtain ⟨hHandle, hLive⟩ := handle_eq_some_iff.mp hHandle
    split at hStep
    · cases hStep
    · obtain ⟨r, hState, hNext⟩ := Option.bind_eq_some_iff.mp hStep
      have hFollows := hRight.follows h j r hHandle (by simp [hLive, RoomStage.receiving]) hState
      split at hNext
      · cases hNext
      · rename_i next hRecv
        exact absurd hRecv (Broadcast.recv_of_le (hKeepsUp j hHandle r hState) next)
      · rename_i event next hRecv
        cases hNext
        rw [List.append_nil]
        refine hRight.setHandle hHandle rfl rfl rfl fun _ r' hState' => ?_
        cases hState.symm.trans hState'
        exact ⟨hFollows.exact.recv hRecv, hFollows.log, hFollows.silent, hFollows.agrees⟩
  · cases hStep

theorem Right.subscribe (hRight : s.Right published)
    (hStep : s.step slots (.subscribe h) = some (s', o)) : s'.Right (published ++ o) := by
  simp only [DistributedChannel.step] at hStep
  split at hStep
  · rename_i j hHandle
    obtain ⟨hHandle, hStage⟩ := handle_eq_some_iff.mp hHandle
    obtain ⟨r, hState, hNext⟩ := Option.map_eq_some_iff.mp hStep
    cases hNext
    rw [List.append_nil]
    refine hRight.setHandle hHandle rfl rfl (by rw [hStage]; rfl) fun _ r' hState' => ?_
    cases hState.symm.trans hState'
    obtain ⟨hSuffix, hSilent⟩ := hRight.inbox j.state r hState
    exact .subscribe hSuffix hSilent
  · cases hStep

theorem Right.leave (hRight : s.Right published)
    (hStep : s.step slots (.leave h) = some (s', o)) : s'.Right (published ++ o) := by
  simp only [DistributedChannel.step] at hStep
  split at hStep
  · rename_i j hHandle
    obtain ⟨hHandle, hStage⟩ := handle_eq_some_iff.mp hHandle
    obtain ⟨r, hState, hNext⟩ := Option.map_eq_some_iff.mp hStep
    cases hNext
    rw [List.append_nil]
    exact (hRight.setPresent hState _).setHandle hHandle rfl rfl (by rw [hStage]; rfl)
      fun hNot => by cases hNot
  · cases hStep

theorem Right.hset (hRight : s.Right published)
    (hStep : s.step slots (.hset h) = some (s', o)) : s'.Right (published ++ o) := by
  obtain ⟨j, hHandle, hStage, hNext⟩ := map_handle_eq_some hStep
  cases hNext
  rw [List.append_nil]
  refine hRight.move hHandle (fun _ => by rw [hStage]; rfl) (.inl ⟨by rw [hStage]; rfl, rfl⟩) _ ?_ ?_
  · intro x
    rw [TreeMap.mem_insert, Std.compare_eq_iff_eq]
    by_cases hEq : x = j.info.clientId
    · simp [hEq, RoomStage.status, Replay.Status.listed]
    · simp [hEq, Ne.symm hEq]
  · intro x m hMember
    rcases lookup_insert_iff.mp hMember with ⟨rfl, rfl⟩ | ⟨_, hOld⟩
    · rfl
    · exact hRight.keyed x m hOld

theorem Right.hdel (hRight : s.Right published)
    (hStep : s.step slots (.hdel h) = some (s', o)) : s'.Right (published ++ o) := by
  obtain ⟨j, hHandle, hStage, hNext⟩ := map_handle_eq_some hStep
  cases hNext
  rw [List.append_nil]
  refine hRight.move hHandle (fun hNot => by cases hNot) (.inr ⟨by rw [hStage]; rfl, rfl⟩) _ ?_ ?_
  · intro x
    rw [TreeMap.mem_erase, ne_eq, Std.compare_eq_iff_eq]
    by_cases hEq : x = j.info.clientId
    · simp [hEq, RoomStage.status, Replay.Status.listed]
    · simp [hEq, Ne.symm hEq]
  · exact fun x m hMember => hRight.keyed x m (lookup_erase_iff.mp hMember).2

theorem Right.publishJoined (hRight : s.Right published) (hTimely : s.Timely (.publishJoined h))
    (hStep : s.step slots (.publishJoined h) = some (s', o)) : s'.Right (published ++ o) := by
  obtain ⟨j, hHandle, hStage, hNext⟩ := map_handle_eq_some hStep
  cases hNext
  refine hRight.publish hHandle (fun _ => by rw [hStage]; rfl) rfl rfl (by rw [hStage]; trivial) ?_
  intro d hMem hReceiving r hState present hPresent
  have hReaches := hTimely j hHandle d hMem hReceiving r hState present hPresent
  exact hReaches.imp id fun hListed => ⟨rfl, hListed⟩

theorem Right.publishLeft (hRight : s.Right published) (hTimely : s.Timely (.publishLeft h))
    (hStep : s.step slots (.publishLeft h) = some (s', o)) : s'.Right (published ++ o) := by
  obtain ⟨j, hHandle, hStage, hNext⟩ := map_handle_eq_some hStep
  cases hNext
  refine hRight.publish hHandle (fun hNot => by cases hNot) rfl rfl (by rw [hStage]; trivial) ?_
  intro d hMem hReceiving r hState present hPresent
  exact .inl (hTimely d hMem hReceiving r hState present hPresent)

theorem Right.step (hRight : s.Right published) (hOnce : s.JoinsOnce e) (hTimely : s.Timely e)
    (hKeepsUp : s.KeepsUp slots e) (hStep : s.step slots e = some (s', o)) :
    s'.Right (published ++ o) := by
  cases e with
  | init =>
    cases hStep
    rw [List.append_nil]
    exact hRight.init
  | connect i =>
    simp only [DistributedChannel.step] at hStep
    split at hStep
    · rename_i r hState
      split at hStep <;> cases hStep
      rw [List.append_nil]
      refine hRight.setState hState ⟨(hRight.inbox i r hState).1, fun hNot => by cases hNot⟩ ?_
      intro _ _ _ _ _ hFollows
      exact ⟨hFollows.exact, hFollows.log, (fun hNot => by cases hNot), hFollows.agrees⟩
    · cases hStep
  | message i =>
    simp only [DistributedChannel.step] at hStep
    split at hStep
    · rename_i r hState
      split at hStep
      · rename_i last event inbox _ hInbox
        cases hStep
        rw [List.append_nil]
        exact hRight.message hState last hInbox
      · cases hStep
    · cases hStep
  | elapse ms =>
    cases hStep
    rw [List.append_nil]
    exact ⟨hRight.once, hRight.placed, hRight.recorded, hRight.listed, hRight.keyed, hRight.inbox,
      hRight.follows⟩
  | join i info =>
    simp only [DistributedChannel.step] at hStep
    split at hStep
    · rename_i r hState
      split at hStep <;> cases hStep <;> rw [List.append_nil]
      · refine (hRight.setPresent hState _).enter hOnce ?_ _
        simpa [DistributedChannel.setState] using (List.getElem?_eq_some_iff.mp hState).1
      · exact hRight
    · cases hStep
  | subscribe h => exact hRight.subscribe hStep
  | hset h => exact hRight.hset hStep
  | publishJoined h => exact hRight.publishJoined hTimely hStep
  | hgetall h => exact hRight.hgetall hTimely hStep
  | recv h => exact hRight.recv hKeepsUp hStep
  | drop h =>
    obtain ⟨j, hHandle, hStage, hNext⟩ := map_handle_eq_some hStep
    cases hNext
    rw [List.append_nil]
    exact hRight.setHandle hHandle rfl rfl (by rw [hStage]; rfl) fun hNot => by cases hNot
  | leave h => exact hRight.leave hStep
  | publishLeft h => exact hRight.publishLeft hTimely hStep
  | hdel h => exact hRight.hdel hStep

/-- All joins, leaves and deliveries are done. -/
structure Settled (s : DistributedChannel) : Prop where
  handles : ∀ j ∈ s.handles, j.stage = .live ∨ j.stage = .left
  delivered : ∀ r ∈ s.states, r.inbox = []
  received : ∀ j ∈ s.handles, j.stage = .live → ∀ r ∈ s.states[j.state]?,
    j.updates.next = r.tx.length

/-- A session with its snapshot knows the other clients with a live handle. -/
def ViewsRight (s : DistributedChannel) : Prop :=
  s.Settled → ∀ (h : HandleId) (j : RoomHandle) (present : List ClientInfo),
    s.handles[h]? = some j → j.stage = .live → j.updates.present = some present → ∀ x,
      x ∈ roster j.info present j.updates.received ↔
        ∃ d ∈ s.handles, d.stage = .live ∧ d.info.clientId ≠ j.info.clientId ∧ d.info.clientId = x

theorem Right.viewsRight (hRight : s.Right published) : s.ViewsRight := by
  intro hSettled h j present hHandle hLive hPresent x
  have hMem := List.mem_of_getElem? hHandle
  obtain ⟨r, hState⟩ : ∃ r, s.states[j.state]? = some r :=
    ⟨_, List.getElem?_eq_getElem (hRight.placed j hMem)⟩
  have hFollows := hRight.follows h j r hHandle (by simp [hLive, RoomStage.receiving]) hState
  have hReceived : j.updates.received = r.log j.updates := by
    rw [hFollows.exact.received, hSettled.received j hMem hLive r hState, List.take_length,
      RedisChannelEvents.log, hSettled.delivered r (List.mem_of_getElem? hState), List.append_nil]
  have hStage {g : HandleId} {d : RoomHandle} (hLookup : s.handles[g]? = some d)
      (hStatus : d.stage.status = .announced ∨ d.stage.status = .stored) :
      d.stage = .live := by
    rcases hSettled.handles d (List.mem_of_getElem? hLookup) with hStage | hStage
    · exact hStage
    · rw [hStage] at hStatus
      rcases hStatus with hEq | hEq <;> cases hEq
  have hNotStored : status s.handles x ≠ .stored := by
    intro hStored
    obtain ⟨g, d, hLookup, _, hStatus⟩ :=
      hRight.once.exists_of_status (x := x) (by simp [hStored])
    rw [hStored] at hStatus
    rw [hStage hLookup (.inr hStatus)] at hStatus
    cases hStatus
  have hSuffix : announcements (r.log j.updates) <:+ announcements published := hFollows.log.map _
  rw [mem_roster_iff, hReceived]
  constructor
  · rintro ⟨hNe, hX⟩
    rw [Replay.mem_replay_iff hRight.recorded hSuffix
      (hFollows.agrees present hPresent x hNe) hNotStored] at hX
    obtain ⟨g, d, hLookup, rfl, hStatus⟩ :=
      hRight.once.exists_of_status (x := x) (by simp [hX])
    exact ⟨d, List.mem_of_getElem? hLookup, hStage hLookup (.inl (hStatus.trans hX)), hNe, rfl⟩
  · rintro ⟨d, hD, hDLive, hNe, rfl⟩
    obtain ⟨g, hLookup⟩ := List.getElem?_of_mem hD
    refine ⟨hNe, ?_⟩
    rw [Replay.mem_replay_iff hRight.recorded hSuffix
      (hFollows.agrees present hPresent _ hNe) hNotStored, hRight.once.status hLookup, hDLive]
    rfl

instance (s : DistributedChannel) : (e : Event) → Decidable (s.JoinsOnce e)
  | .join _ info => inferInstanceAs (Decidable (∀ d ∈ s.handles, d.info.clientId ≠ info.clientId))
  | .init | .connect _ | .message _ | .elapse _ | .subscribe _ | .hset _ | .publishJoined _
  | .hgetall _ | .recv _ | .drop _ | .leave _ | .publishLeft _ | .hdel _ => .isTrue trivial

instance (s : DistributedChannel) : (e : Event) → Decidable (s.Timely e)
  | .publishJoined h => inferInstanceAs (Decidable (∀ j ∈ s.handles[h]?, ∀ d ∈ s.handles,
      d.stage.receiving = true → ∀ r ∈ s.states[d.state]?, ∀ present ∈ d.updates.present,
        r.source.isSubscribed = true ∨ j.info.clientId ∈ clientIds present))
  | .publishLeft _ => inferInstanceAs (Decidable (∀ d ∈ s.handles, d.stage.receiving = true →
      ∀ r ∈ s.states[d.state]?, ∀ _present ∈ d.updates.present, r.source.isSubscribed = true))
  | .hgetall h => inferInstanceAs (Decidable (∀ j ∈ s.handles[h]?, ∀ r ∈ s.states[j.state]?,
      ∀ d ∈ s.handles, d.stage = .parted → .left d.info ∈ r.log j.updates))
  | .init | .connect _ | .message _ | .elapse _ | .join _ _ | .subscribe _ | .hset _ | .recv _
  | .drop _ | .leave _ | .hdel _ => .isTrue trivial

instance (slots : Nat) (s : DistributedChannel) : (e : Event) → Decidable (s.KeepsUp slots e)
  | .recv h => inferInstanceAs (Decidable (∀ j ∈ s.handles[h]?, ∀ r ∈ s.states[j.state]?,
      r.tx.length ≤ j.updates.next + slots))
  | .init | .connect _ | .message _ | .elapse _ | .join _ _ | .subscribe _ | .hset _
  | .publishJoined _ | .hgetall _ | .drop _ | .leave _ | .publishLeft _ | .hdel _ => .isTrue trivial

instance (s : DistributedChannel) : Decidable s.Settled :=
  decidable_of_iff ((∀ j ∈ s.handles, j.stage = .live ∨ j.stage = .left) ∧
      (∀ r ∈ s.states, r.inbox = []) ∧
      ∀ j ∈ s.handles, j.stage = .live → ∀ r ∈ s.states[j.state]?, j.updates.next = r.tx.length)
    ⟨fun h => ⟨h.1, h.2.1, h.2.2⟩, fun h => ⟨h.handles, h.delivered, h.received⟩⟩

/-- In every run in which each client joins once, the events reach the sessions that have their
snapshot and the snapshots are not behind the leaves that the sessions missed, the sessions know
their channel whenever all is done. -/
theorem roster_right_along (slots : Nat) (es : List Event) (s : DistributedChannel)
    (tr : List ChannelEvent) (hRun : Machine.run (step slots) new es = some (s, tr))
    (hOnce : Machine.Along (step slots) JoinsOnce new es)
    (hTimely : Machine.Along (step slots) Timely new es)
    (hKeepsUp : Machine.Along (step slots) (KeepsUp slots) new es) : s.ViewsRight := by
  have hRight : s.Right tr :=
    Machine.run_induction_along (P := fun s tr => s.Right tr) Right.new
      (fun _ _ _ _ _ hRight hOk h => hRight.step hOk.1 hOk.2.1 hOk.2.2 h)
      (hOnce.and (hTimely.and hKeepsUp)) hRun
  exact hRight.viewsRight

/-- Client 2 is in the hash before its join is published, client 3 joins in between on the other
gateway's instance, and client 1 leaves when both have their snapshots. -/
def crossed : List Event :=
  [.init, .connect 0, .init, .connect 1,
    .join 0 ⟨1, 10, "a"⟩, .subscribe 0, .hset 0, .publishJoined 0, .message 0, .message 1, .hgetall 0,
    .join 1 ⟨2, 20, "b"⟩, .subscribe 1, .hset 1,
    .join 0 ⟨3, 30, "c"⟩, .subscribe 2, .hset 2, .publishJoined 2, .hgetall 2,
    .publishJoined 1, .message 0, .message 0, .message 1, .message 1, .hgetall 1,
    .drop 0, .leave 0, .publishLeft 0, .hdel 0, .message 0, .message 1,
    .recv 1, .recv 1, .recv 1, .recv 2, .recv 2, .recv 2]

theorem roster_right_along_crossed : ∃ s tr,
    Machine.run (step 128) new crossed = some (s, tr) ∧ s.Settled ∧
      ((s.handles[(2 : HandleId)]?).map fun j => j.updates.present.map fun present =>
        roster j.info present j.updates.received) = some (some {2}) ∧ s.ViewsRight := by
  have hFacts : (Machine.run (step 128) new crossed).map (fun last => decide (last.1.Settled ∧
      ((last.1.handles[(2 : HandleId)]?).map fun j => j.updates.present.map fun present =>
        roster j.info present j.updates.received) = some (some {2}))) = some true := by decide
  obtain ⟨⟨s, tr⟩, hRun, hLast⟩ := Option.map_eq_some_iff.mp hFacts
  obtain ⟨hSettled, hRoster⟩ := of_decide_eq_true hLast
  exact ⟨s, tr, hRun, hSettled, hRoster,
    roster_right_along 128 crossed s tr hRun (by decide) (by decide) (by decide)⟩

/-- Client 2 joins on another gateway after the snapshot of client 1, and before the source of its
instance has subscribed. -/
def unsubscribed : List Event :=
  [.init, .join 0 ⟨1, 10, "a"⟩, .subscribe 0, .hset 0, .publishJoined 0, .hgetall 0,
    .init, .connect 1, .join 1 ⟨2, 20, "b"⟩, .subscribe 1, .hset 1, .publishJoined 1, .hgetall 1,
    .message 1, .recv 1, .connect 0]

theorem not_roster_right : ¬ ∀ (slots : Nat) (es : List Event) (s : DistributedChannel)
    (tr : List ChannelEvent), Machine.run (step slots) new es = some (s, tr) →
    Machine.Along (step slots) JoinsOnce new es → s.ViewsRight := by
  intro hAll
  have hFacts : (Machine.run (step 128) new unsubscribed).map (fun last => decide (
      last.1.Settled ∧
      (∃ d ∈ last.1.handles, d.stage = .live ∧ d.info.clientId ≠ 1 ∧ d.info.clientId = 2) ∧
      ((last.1.handles[(0 : HandleId)]?).map fun j => (decide (j.stage = .live ∧ j.info.clientId = 1),
        j.updates.present.map fun present =>
          decide (2 ∈ roster j.info present j.updates.received))) = some (true, some false))) =
      some true := by decide
  obtain ⟨⟨s, tr⟩, hRun, hLast⟩ := Option.map_eq_some_iff.mp hFacts
  obtain ⟨hSettled, hOther, hState⟩ := of_decide_eq_true hLast
  obtain ⟨j, hHandle, hFields⟩ := Option.map_eq_some_iff.mp hState
  obtain ⟨hStage, hRoster⟩ := Prod.mk.inj hFields
  obtain ⟨hLive, hClient⟩ := of_decide_eq_true hStage
  obtain ⟨present, hPresent, hAbsent⟩ := Option.map_eq_some_iff.mp hRoster
  have hIff := hAll 128 unsubscribed s tr hRun (by decide) hSettled 0 j present hHandle hLive hPresent 2
  rw [hClient] at hIff
  exact of_decide_eq_false hAbsent (hIff.mpr hOther)

/-- The leave of client 2 is delivered before client 3 subscribes to the same instance, and client 3
has its snapshot before client 2 is taken out of the hash. -/
def ghost : List Event :=
  [.init, .connect 0, .join 0 ⟨1, 10, "a"⟩, .subscribe 0, .hset 0, .publishJoined 0, .hgetall 0,
    .join 0 ⟨2, 20, "b"⟩, .subscribe 1, .hset 1, .publishJoined 1, .message 0, .message 0,
    .drop 1, .leave 1, .publishLeft 1, .message 0,
    .join 0 ⟨3, 30, "c"⟩, .subscribe 2, .hset 2, .publishJoined 2, .hgetall 2, .hdel 1, .message 0,
    .recv 0, .recv 0, .recv 0, .recv 0, .recv 2]

example : (Machine.run (step 128) new ghost).map (fun last => decide (last.1.Settled ∧
    (last.1.handles[(2 : HandleId)]?.map fun j => j.updates.present.map fun present =>
      roster j.info present j.updates.received) = some (some {1, 2}))) = some true := by decide

end DistributedChannel

end Voices.Gateway
