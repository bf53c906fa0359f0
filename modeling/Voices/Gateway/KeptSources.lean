import Voices.Gateway.EventSource
import Voices.Gateway.Returned

/-!
# Instances that keep their source

An instance that is given out has a source that goes on, and each of its receivers
has got or will get what is published after its join, as long as no message comes
to a source that nobody listens to for too long, none is published before a source
has subscribed, and no receiver falls behind.
-/

namespace Voices.Gateway.RedisChannels

open Semantics VoiceServer Std

variable {V : Type} {s s' : RedisChannels V} {e : Event V} {o : List (Channels.Output V)} {i : StateId}
  {r r' : Receiver} {feed : Feed} {slots : Nat}

/-- What a receiver refers to has been published, and its place is one in the broadcast channel. -/
structure Placed (r : Receiver) (feed : Feed) (published : Nat) : Prop where
  next_le : r.next ≤ feed.tx.length
  received : ∀ n ∈ r.received, n < published
  joinedAt : ∀ n ∈ r.joinedAt, n ≤ published

/-- Receivers are of states that a call has returned, and all that is under way has been published. -/
structure Sound (s : RedisChannels V) : Prop where
  handed : s.channels.Handed
  fresh : ∀ i, s.channels.states.length ≤ i → s.feeds i = ⟨.connecting, [], []⟩
  sent : ∀ i, ∀ n ∈ (s.feeds i).tx ++ (s.feeds i).inbox, n < s.published.length
  owned : ∀ r ∈ s.receivers, s.channels.Returned r.state
  placed : ∀ r ∈ s.receivers, Placed r (s.feeds r.state) s.published.length

theorem Placed.item {published n : Nat} (hPlaced : Placed r feed published)
    (hItem : feed.tx[r.next]? = some n) (hSent : n < published) :
    Placed { r with next := r.next + 1, received := r.received ++ [n] } feed published := by
  constructor
  case next_le => exact (List.getElem?_eq_some_iff.mp hItem).1
  case joinedAt => exact hPlaced.joinedAt
  case received =>
    intro m hGot
    rcases List.mem_append.mp hGot with hOld | hLast
    · exact hPlaced.received m hOld
    · cases List.mem_singleton.mp hLast
      exact hSent

theorem Sound.new : (new : RedisChannels V).Sound := by
  refine ⟨Channels.Handed.new, ?_, ?_, ?_, ?_⟩ <;> simp [RedisChannels.new]

section Served

variable {published : List (Uuid × ChannelEvent)} {id : Option Uuid}

theorem awaits_iff {n : Nat} : awaits r n = true ↔ ∃ joinedAt ∈ r.joinedAt, joinedAt ≤ n := by
  cases r with
  | mk state handle joinedAt next received => cases joinedAt <;> simp [awaits]

theorem filter_awaits_eq_nil {l : List Nat} (hBefore : ∀ n ∈ l, ∀ joinedAt ∈ r.joinedAt, n < joinedAt) :
    l.filter (awaits r) = [] := by
  refine List.filter_eq_nil_iff.mpr fun n hMem hAwaits => ?_
  obtain ⟨joinedAt, hJoined, hLe⟩ := awaits_iff.mp hAwaits
  exact Nat.not_lt.mpr hLe (hBefore n hMem joinedAt hJoined)

theorem publishedOn_lt {n : Nat} (hMem : n ∈ publishedOn published id) : n < published.length := by
  obtain ⟨⟨entry, m⟩, hEntry, hSome⟩ := List.mem_filterMap.mp hMem
  obtain ⟨_, hEq⟩ := Option.ite_none_right_eq_some.mp hSome
  cases hEq
  exact (List.getElem?_eq_some_iff.mp (List.mk_mem_zipIdx_iff_getElem?.mp hEntry)).1

theorem publishedOn_snoc {name : Uuid} {event : ChannelEvent} :
    publishedOn (published ++ [(name, event)]) id =
      publishedOn published id ++ if some name = id then [published.length] else [] := by
  simp only [publishedOn, List.zipIdx_append, List.filterMap_append, List.zipIdx_singleton,
    List.filterMap_cons, List.filterMap_nil, Nat.zero_add]
  split <;> simp_all

/-- A receiver that has not joined, or just now, awaits nothing so far. -/
theorem served_of_joinedAt (hSent : ∀ n ∈ feed.tx ++ feed.inbox, n < published.length)
    (hReceived : ∀ n ∈ r.received, n < published.length)
    (hJoined : ∀ joinedAt ∈ r.joinedAt, joinedAt = published.length) :
    Served r feed (publishedOn published id) := by
  have hBefore {l : List Nat} (hLt : ∀ n ∈ l, n < published.length) : l.filter (awaits r) = [] :=
    filter_awaits_eq_nil fun n hMem joinedAt hAt => (hJoined joinedAt hAt).symm ▸ hLt n hMem
  unfold Served
  rw [hBefore fun n hMem => publishedOn_lt hMem]
  refine hBefore fun n hMem => ?_
  rcases List.mem_append.mp hMem with hOld | hMem
  · exact hReceived n hOld
  · rcases List.mem_append.mp hMem with hDropped | hInbox
    · exact hSent n (List.mem_append_left _ (List.mem_of_mem_drop hDropped))
    · exact hSent n (List.mem_append_right _ hInbox)

/-- The source hands on the first of its messages. -/
theorem served_message {n : Nat} {inbox : List Nat} {source : EventSource}
    (hInbox : feed.inbox = n :: inbox) (hNext : r.next ≤ feed.tx.length) {l : List Nat} :
    Served r ⟨source, inbox, feed.tx ++ [n]⟩ l ↔ Served r feed l := by
  simp only [Served, hInbox, List.drop_append_of_le_length hNext, List.append_assoc, List.singleton_append]

theorem served_item {n : Nat} (hItem : feed.tx[r.next]? = some n) {l : List Nat} :
    Served { r with next := r.next + 1, received := r.received ++ [n] } feed l ↔ Served r feed l := by
  obtain ⟨hLt, rfl⟩ := List.getElem?_eq_some_iff.mp hItem
  have hDrop : feed.tx.drop r.next = feed.tx[r.next] :: feed.tx.drop (r.next + 1) :=
    List.drop_eq_getElem_cons hLt
  simp only [Served, hDrop, List.append_assoc, List.cons_append]
  rfl

/-- What a receiver passes over is lost to it. -/
theorem served_lagged {next : Nat} (hNext : r.next ≤ next) {l : List Nat} (hServed : Served r feed l) :
    Served { r with next } feed l ↔
      ((feed.tx.drop r.next).take (next - r.next)).filter (awaits r) = [] := by
  have hDrop : feed.tx.drop r.next =
      (feed.tx.drop r.next).take (next - r.next) ++ feed.tx.drop next := by
    rw [← Nat.add_sub_cancel' hNext, ← List.drop_drop, Nat.add_sub_cancel_left, List.take_append_drop]
  have hAwaits : awaits { r with next } = awaits r := rfl
  unfold Served at hServed ⊢
  rw [hDrop] at hServed
  simp only [hAwaits, List.filter_append] at hServed ⊢
  rw [← hServed]
  simp

/-- What is published reaches a receiver that awaits it exactly if the source is subscribed. -/
theorem served_publish (name : Uuid) (event : ChannelEvent)
    (hPlaced : Placed r feed published.length) (hServed : Served r feed (publishedOn published id)) :
    Served r
        (if id = some name ∧ feed.source.isSubscribed = true then
          { feed with inbox := feed.inbox ++ [published.length] } else feed)
        (publishedOn (published ++ [(name, event)]) id) ↔
      (r.joinedAt.isSome = true → id = some name → feed.source.isSubscribed = true) := by
  have hAwaits : awaits r published.length = r.joinedAt.isSome := by
    rw [Bool.eq_iff_iff, awaits_iff, Option.isSome_iff_exists]
    exact exists_congr fun n => ⟨fun h => h.1, fun h => ⟨h, hPlaced.joinedAt n h⟩⟩
  rw [publishedOn_snoc]
  by_cases hName : id = some name
  · subst hName
    cases hSource : feed.source.isSubscribed with
    | true =>
      simp only [and_self, if_true, implies_true, iff_true]
      unfold Served at hServed ⊢
      have hLast : r.received ++ (feed.tx.drop r.next ++ (feed.inbox ++ [published.length])) =
          r.received ++ (feed.tx.drop r.next ++ feed.inbox) ++ [published.length] := by simp
      rw [hLast, List.filter_append, hServed, List.filter_append]
    | false =>
      simp only [and_false, Bool.false_eq_true, if_false, if_true]
      unfold Served at hServed ⊢
      rw [hServed]
      cases hJoined : r.joinedAt.isSome <;> simp [hAwaits, hJoined]
  · simp only [hName, false_and, if_false, if_neg (Ne.symm hName), List.append_nil]
    exact iff_of_true hServed (by simp)

end Served

theorem given_lt {c : Channels V} (hGiven : Given c i) : i < c.states.length := by
  obtain ⟨_, events, hState, _⟩ := hGiven
  exact (List.getElem?_eq_some_iff.mp hState).1

theorem receiver_eq_some {h : HandleId} (hReceiver : s.receiver i h = some r) :
    r ∈ s.receivers ∧ r.state = i := by
  refine ⟨List.mem_of_find?_eq_some hReceiver, ?_⟩
  have hBoth := List.find?_some hReceiver
  simp only [Bool.and_eq_true, beq_iff_eq] at hBoth
  exact hBoth.1

theorem joining_eq_some {h : HandleId} {events : ChannelEvents} {j : ChatRoomJoined}
    (hJoining : s.joining i h = some (events, j)) :
    s.channels.states[i]? = some events ∧ events.handles ≠ [] := by
  obtain ⟨found, hState, hHandle⟩ := Option.bind_eq_some_iff.mp hJoining
  obtain ⟨_, hMem, hEq⟩ := Option.map_eq_some_iff.mp hHandle
  cases hEq
  exact ⟨hState, List.ne_nil_of_mem (List.mem_of_getElem? (ChannelEvents.handle_eq_some_iff.mp hMem).1)⟩

theorem feeds_setFeed {n : StateId} : (s.setFeed i feed).feeds n = if n = i then feed else s.feeds n :=
  Function.update_apply s.feeds i feed n

theorem Sound.setReceivers (hSound : s.Sound) {receivers : List Receiver}
    (hReceivers : ∀ r ∈ receivers, s.channels.Returned r.state ∧
      Placed r (s.feeds r.state) s.published.length) : Sound { s with receivers } where
  handed := hSound.handed
  fresh := hSound.fresh
  sent := hSound.sent
  owned r hMem := (hReceivers r hMem).1
  placed r hMem := (hReceivers r hMem).2

theorem Sound.forget (hSound : s.Sound) {h : HandleId} : (s.forget i h).Sound := by
  refine hSound.setReceivers fun r hMem => ?_
  have hOld : r ∈ s.receivers := (List.mem_filter.mp hMem).1
  exact ⟨hSound.owned r hOld, hSound.placed r hOld⟩

theorem Sound.join (hSound : s.Sound) {h : HandleId} : (s.join i h).Sound := by
  refine hSound.setReceivers fun r hMem => ?_
  obtain ⟨q, hOld, rfl⟩ := List.mem_map.mp hMem
  have hPlaced := hSound.placed q hOld
  split
  · exact ⟨hSound.owned q hOld, hPlaced.next_le, hPlaced.received, by simp⟩
  · exact ⟨hSound.owned q hOld, hPlaced⟩

theorem Sound.setReceiver (hSound : s.Sound) (hMem : r ∈ s.receivers) (hState : r'.state = r.state)
    (hPlaced : Placed r' (s.feeds r.state) s.published.length) : (s.setReceiver r r').Sound := by
  refine hSound.setReceivers fun q hNew => ?_
  obtain ⟨old, hOld, rfl⟩ := List.mem_map.mp hNew
  split
  · rw [hState]
    exact ⟨hSound.owned r hMem, hPlaced⟩
  · exact ⟨hSound.owned old hOld, hSound.placed old hOld⟩

theorem Sound.setFeed (hSound : s.Sound) (hMade : i < s.channels.states.length)
    (hSent : ∀ n ∈ feed.tx ++ feed.inbox, n < s.published.length)
    (hLonger : (s.feeds i).tx.length ≤ feed.tx.length) : (s.setFeed i feed).Sound where
  handed := hSound.handed
  fresh n hLength := by
    rw [feeds_setFeed, if_neg (Nat.ne_of_gt (Nat.lt_of_lt_of_le hMade hLength))]
    exact hSound.fresh n hLength
  sent n := by
    rw [feeds_setFeed]
    split
    · exact hSent
    · exact hSound.sent n
  owned := hSound.owned
  placed r hMem := by
    have hPlaced := hSound.placed r hMem
    rw [feeds_setFeed]
    split
    · rename_i hEq
      exact ⟨Nat.le_trans (hEq ▸ hPlaced.next_le) hLonger, hPlaced.received, hPlaced.joinedAt⟩
    · exact hPlaced

theorem Sound.message (hSound : s.Sound) (hMade : i < s.channels.states.length) {last n : Nat}
    {inbox : List Nat} (hInbox : (s.feeds i).inbox = n :: inbox) : (s.message i last n inbox).Sound := by
  have hSent (m : Nat) (hMem : m ∈ (s.feeds i).tx) : m < s.published.length :=
    hSound.sent i m (List.mem_append_left _ hMem)
  have hKnown (m : Nat) (hMem : m ∈ n :: inbox) : m < s.published.length :=
    hSound.sent i m (List.mem_append_right _ (hInbox ▸ hMem))
  apply hSound.setFeed hMade
  · intro m hMem
    dsimp only at hMem
    rcases List.mem_append.mp hMem with hTx | hRest
    · split at hTx
      · rcases List.mem_append.mp hTx with hOld | hLast
        · exact hSent m hOld
        · cases List.mem_singleton.mp hLast
          exact hKnown n List.mem_cons_self
      · exact hSent m hTx
    · split at hRest
      · cases hRest
      · exact hKnown m (List.mem_cons_of_mem _ hRest)
  · dsimp only
    split
    · simp
    · exact Nat.le_refl _

theorem Sound.publish (hSound : s.Sound) {id : Uuid} {event : ChannelEvent} :
    (s.publish id event).Sound := by
  have hLength : (s.publish id event).published.length = s.published.length + 1 := by
    simp [RedisChannels.publish]
  have hTx (n : StateId) : ((s.publish id event).feeds n).tx = (s.feeds n).tx := by
    simp only [RedisChannels.publish]
    split <;> rfl
  constructor
  case handed => exact hSound.handed
  case fresh =>
    intro n hMade
    have hLate : s.channels.states.length ≤ n := hMade
    have hNone : s.channelOf n = none := by simp [channelOf, List.getElem?_eq_none hLate]
    simp only [RedisChannels.publish, hNone, reduceCtorEq, false_and, if_false]
    exact hSound.fresh n hMade
  case sent =>
    intro n m hMem
    rw [hLength]
    simp only [RedisChannels.publish] at hMem
    split at hMem
    · simp only [List.mem_append, List.mem_singleton, ← or_assoc] at hMem
      rcases hMem with hOld | rfl
      · exact Nat.lt_succ_of_lt (hSound.sent n m (List.mem_append.mpr hOld))
      · exact Nat.lt_succ_self _
    · exact Nat.lt_succ_of_lt (hSound.sent n m hMem)
  case owned => exact hSound.owned
  case placed =>
    intro r hMem
    have hPlaced := hSound.placed r hMem
    rw [hLength]
    exact ⟨(hTx r.state).symm ▸ hPlaced.next_le, fun n h => Nat.lt_succ_of_lt (hPlaced.received n h),
      fun n h => Nat.le_succ_of_le (hPlaced.joinedAt n h)⟩

theorem Sound.setChannels (hSound : s.Sound) {c : Channels V} (hHanded : c.Handed)
    (hMade : s.channels.states.length ≤ c.states.length)
    (hReturned : ∀ i, s.channels.Returned i → c.Returned i) : Sound { s with channels := c } where
  handed := hHanded
  fresh i hLength := hSound.fresh i (Nat.le_trans hMade hLength)
  sent := hSound.sent
  owned r hMem := hReturned r.state (hSound.owned r hMem)
  placed := hSound.placed

theorem keepsSources_setFeed (hKeeps : s.KeepsSources) :
    (s.setFeed i feed).KeepsSources ↔ (Given s.channels i → feed.source ≠ .ended ∧
      ∀ r ∈ s.receivers, r.state = i → Served r feed (publishedOn s.published (s.channelOf i))) := by
  constructor
  · intro hKept hGiven
    obtain ⟨hSource, hServed⟩ := hKept i hGiven
    rw [feeds_setFeed, if_pos rfl] at hSource hServed
    exact ⟨hSource, hServed⟩
  · intro hFeed n hGiven
    by_cases hEq : n = i
    · subst hEq
      obtain ⟨hSource, hServed⟩ := hFeed hGiven
      constructor
      all_goals rw [feeds_setFeed, if_pos rfl]
      · exact hSource
      · exact hServed
    · obtain ⟨hSource, hServed⟩ := hKeeps n hGiven
      constructor
      all_goals rw [feeds_setFeed, if_neg hEq]
      · exact hSource
      · exact hServed

theorem keepsSources_setReceivers (hKeeps : s.KeepsSources) {receivers : List Receiver}
    (hReceivers : ∀ r ∈ receivers, r ∈ s.receivers ∨
      Served r (s.feeds r.state) (publishedOn s.published (s.channelOf r.state))) :
    KeepsSources { s with receivers } := by
  intro i hGiven
  refine ⟨(hKeeps i hGiven).source, fun r hMem hState => ?_⟩
  rcases hReceivers r hMem with hOld | hServed
  · exact (hKeeps i hGiven).served r hOld hState
  · exact hState ▸ hServed

theorem keepsSources_forget (hKeeps : s.KeepsSources) {h : HandleId} : (s.forget i h).KeepsSources :=
  keepsSources_setReceivers hKeeps fun _ hMem => .inl (List.mem_filter.mp hMem).1

theorem keepsSources_join (hSound : s.Sound) (hKeeps : s.KeepsSources) {h : HandleId} :
    (s.join i h).KeepsSources := by
  refine keepsSources_setReceivers hKeeps fun r hMem => ?_
  obtain ⟨q, hOld, rfl⟩ := List.mem_map.mp hMem
  split
  · refine .inr (served_of_joinedAt (hSound.sent q.state) (hSound.placed q hOld).received ?_)
    simp
  · exact .inl hOld

theorem keepsSources_setReceiver (hKeeps : s.KeepsSources) (hMem : r ∈ s.receivers) (r' : Receiver)
    (hState : r'.state = r.state) :
    (s.setReceiver r r').KeepsSources ↔ (Given s.channels r.state →
      Served r' (s.feeds r.state) (publishedOn s.published (s.channelOf r.state))) := by
  constructor
  · intro hKept hGiven
    refine (hKept r.state hGiven).served r' (List.mem_map.mpr ⟨r, hMem, if_pos rfl⟩) hState
  · intro hServed i hGiven
    refine ⟨(hKeeps i hGiven).source, fun q hNew hQState => ?_⟩
    obtain ⟨old, hOld, rfl⟩ := List.mem_map.mp hNew
    split at hQState
    · obtain rfl : r.state = i := hState.symm.trans hQState
      rw [if_pos ‹_›]
      exact hServed hGiven
    · rw [if_neg ‹_›]
      exact (hKeeps i hGiven).served old hOld hQState

theorem keepsSources_publish (hSound : s.Sound) (hKeeps : s.KeepsSources) {id : Uuid}
    {event : ChannelEvent} : (s.publish id event).KeepsSources ↔ s.Attended slots (.publish id event) := by
  have hServed {r : Receiver} (hMem : r ∈ s.receivers) (hGiven : Given s.channels r.state) :=
    served_publish id event (hSound.placed r hMem)
      ((hKeeps r.state hGiven).served r hMem rfl)
  constructor
  · intro hKept r hMem hJoined hChannel hGiven
    exact (hServed hMem hGiven).mp ((hKept r.state hGiven).served r hMem rfl) hJoined hChannel
  · intro hAttended i hGiven
    constructor
    · have hSource := (hKeeps i hGiven).source
      simp only [RedisChannels.publish]
      split <;> exact hSource
    · rintro r hMem rfl
      refine (hServed hMem hGiven).mpr fun hJoined hChannel => ?_
      exact hAttended r hMem hJoined hChannel hGiven

theorem advance_eq_some_iff {event : Channels.Event V} :
    s.advance event = some (s', o) ↔
      ∃ c, s.channels.step event = some (c, o) ∧ s' = { s with channels := c } := by
  simp only [advance, Option.map_eq_some_iff, Prod.exists, Prod.mk.injEq]
  constructor
  · rintro ⟨c, output, hStep, rfl, rfl⟩
    exact ⟨c, hStep, rfl⟩
  · rintro ⟨c, hStep, rfl⟩
    exact ⟨c, o, hStep, rfl, rfl⟩

/-- A state that is stored has had no receiver yet. -/
theorem keepsSources_advance (hSound : s.Sound) (hKeeps : s.KeepsSources) {event : Channels.Event V}
    (hNext : s.advance event = some (s', o)) :
    s'.Sound ∧ (s'.KeepsSources ↔ s.Attended slots (.channels event)) := by
  obtain ⟨c, hStep, rfl⟩ := advance_eq_some_iff.mp hNext
  have hEffect := Channels.step_effect hStep
  refine ⟨hSound.setChannels (hSound.handed.effect hEffect) (states_length_le hEffect)
    fun _ => hEffect.returned, fun hKept => ?_, fun hAttended i hGiven => ?_⟩
  · cases event with
    | insert k =>
      intro room hStores hOpen
      exact (hKept room.state (given_stores hStep hStores hOpen)).source
    | _ => trivial
  · have hUnheard (hNot : ¬ s.channels.Returned i) : ∀ r ∈ s.receivers, r.state ≠ i :=
      fun r hMem hState => hNot (hState ▸ hSound.owned r hMem)
    rcases given_before hEffect hGiven with hOld | hLength | ⟨k, room, rfl, hStores, rfl, hOpen⟩
    · obtain ⟨hSource, hServed⟩ := hKeeps i hOld
      have hChannel : channelOf { s with channels := c } i = s.channelOf i :=
        map_channelId hEffect (given_lt hOld)
      exact ⟨hSource, hChannel ▸ hServed⟩
    · refine ⟨by simp [hSound.fresh i hLength], fun r hMem hState => absurd hState (hUnheard ?_ r hMem)⟩
      exact fun hReturned => absurd (hSound.handed.made i hReturned) (Nat.not_lt.mpr hLength)
    · obtain ⟨call, hCall, hPhase, _⟩ := stores_eq_some_iff.mp hStores
      have hNew := (hSound.handed.pending k call room hCall hPhase).2.1
      exact ⟨hAttended room hStores hOpen, fun r hMem hState => absurd hState (hUnheard hNew r hMem)⟩

theorem keepsSources_channels (hSound : s.Sound) (hKeeps : s.KeepsSources) {event : Channels.Event V}
    (hStep : s.step slots (.channels event) = some (s', o)) :
    s'.Sound ∧ (s'.KeepsSources ↔ s.Attended slots (.channels event)) := by
  cases event with
  | joined i h =>
    obtain ⟨_, hMap⟩ := Option.ite_none_right_eq_some.mp hStep
    obtain ⟨⟨s₁, o₁⟩, hNext, hEq⟩ := Option.map_eq_some_iff.mp hMap
    cases hEq
    have hAdvance : s₁.Sound ∧ (s₁.KeepsSources ↔ s.Attended slots (.channels (.joined i h))) :=
      keepsSources_advance hSound hKeeps hNext
    obtain ⟨hSound₁, hIff⟩ := hAdvance
    exact ⟨hSound₁.join, iff_of_true (keepsSources_join hSound₁ (hIff.mpr trivial)) trivial⟩
  | drop i h =>
    obtain ⟨⟨s₁, o₁⟩, hNext, hEq⟩ := Option.map_eq_some_iff.mp hStep
    cases hEq
    have hAdvance : s₁.Sound ∧ (s₁.KeepsSources ↔ s.Attended slots (.channels (.drop i h))) :=
      keepsSources_advance hSound hKeeps hNext
    obtain ⟨hSound₁, hIff⟩ := hAdvance
    exact ⟨hSound₁.forget, iff_of_true (keepsSources_forget (hIff.mpr trivial)) trivial⟩
  | _ => exact keepsSources_advance hSound hKeeps hStep

/-- A handle that is dropped closes nothing by itself. -/
theorem keepsSources_fail (hSound : s.Sound) (hKeeps : s.KeepsSources) {h : HandleId}
    (hStep : s.step slots (.fail i h) = some (s', o)) : s'.Sound ∧ s'.KeepsSources := by
  simp only [step] at hStep
  split at hStep
  · rename_i events j hJoining
    split at hStep <;> cases hStep
    obtain ⟨hState, hHandles⟩ := joining_eq_some hJoining
    let failed : ChannelEvents := events.setStage h j .dropped
    let c : Channels V := { s.channels with states := s.channels.states.set i failed }
    have hHanded : c.Handed :=
      hSound.handed.setState hState fun _ => hSound.handed.joined i events hState hHandles
    have hSet : Sound { s with channels := c } :=
      hSound.setChannels hHanded (Nat.le_of_eq List.length_set.symm) fun _ h => h
    refine ⟨hSet.forget, keepsSources_forget fun n hGiven => ?_⟩
    obtain ⟨hStored, hOpen⟩ := given_iff.mp hGiven
    have hSame : failed.locallyPresent.live = true → events.locallyPresent.live = true := id
    have hOld : Open s.channels n := open_set hState hSame hOpen
    obtain ⟨hSource, hServed⟩ := hKeeps n (given_iff.mpr ⟨hStored, hOld⟩)
    have hChannel : channelOf { s with channels := c } n = s.channelOf n := map_channelId_set hState rfl
    exact ⟨hSource, hChannel ▸ hServed⟩
  · cases hStep

theorem keepsSources_subscribe (hSound : s.Sound) (hKeeps : s.KeepsSources) {h : HandleId}
    (hStep : s.step slots (.subscribe i h) = some (s', o)) : s'.Sound ∧ s'.KeepsSources := by
  simp only [step] at hStep
  split at hStep
  · rename_i joining hJoining
    split at hStep <;> cases hStep
    obtain ⟨hState, hHandles⟩ := joining_eq_some hJoining
    have hPlaced : Placed ⟨i, h, none, (s.feeds i).tx.length, []⟩ (s.feeds i) s.published.length :=
      ⟨Nat.le_refl _, by simp, by simp⟩
    constructor
    · refine hSound.setReceivers fun r hMem => ?_
      rcases List.mem_append.mp hMem with hOld | hNew
      · exact ⟨hSound.owned r hOld, hSound.placed r hOld⟩
      · cases List.mem_singleton.mp hNew
        exact ⟨hSound.handed.joined i joining.1 hState hHandles, hPlaced⟩
    · refine keepsSources_setReceivers hKeeps fun r hMem => ?_
      rcases List.mem_append.mp hMem with hOld | hNew
      · exact .inl hOld
      · cases List.mem_singleton.mp hNew
        exact .inr (served_of_joinedAt (hSound.sent i) hPlaced.received (by simp))
  · cases hStep

theorem keepsSources_message (hSound : s.Sound) (hKeeps : s.KeepsSources)
    (hStep : s.step slots (.message i) = some (s', o)) :
    s'.Sound ∧ (s'.KeepsSources ↔ s.Attended slots (.message i)) := by
  simp only [step] at hStep
  split at hStep
  · rename_i last n inbox hSource hInbox
    cases hStep
    have hMade : i < s.channels.states.length := by
      by_contra hNot
      simp [hSound.fresh i (Nat.not_lt.mp hNot)] at hSource
    refine ⟨hSound.message hMade hInbox, (keepsSources_setFeed hKeeps).trans ?_⟩
    refine forall_congr' fun hGiven => ?_
    rw [hSource]
    refine ⟨fun hKept => EventSource.deliver_ne_ended_iff.mp hKept.1, fun hWaits => ?_⟩
    have hNotEnded := EventSource.deliver_ne_ended_iff.mpr hWaits
    refine ⟨hNotEnded, fun r hMem hState => ?_⟩
    have hListening : s.listening i = true := List.any_eq_true.mpr ⟨r, hMem, beq_iff_eq.mpr hState⟩
    simp only [hListening, if_true] at hNotEnded ⊢
    rw [if_neg hNotEnded]
    have hNext : r.next ≤ (s.feeds i).tx.length := hState ▸ (hSound.placed r hMem).next_le
    exact (served_message hInbox hNext).mpr ((hKeeps i hGiven).served r hMem hState)
  · cases hStep

theorem keepsSources_recv (hSound : s.Sound) (hKeeps : s.KeepsSources) {h : HandleId}
    (hStep : s.step slots (.recv i h) = some (s', o)) :
    s'.Sound ∧ (s'.KeepsSources ↔ s.Attended slots (.recv i h)) := by
  simp only [step] at hStep
  split at hStep
  · rename_i r hReceiver
    obtain ⟨hMem, rfl⟩ := receiver_eq_some hReceiver
    have hPlaced := hSound.placed r hMem
    split at hStep
    · cases hStep
    · rename_i next hRecv
      cases hStep
      obtain ⟨hNext, hLength⟩ := Broadcast.recv_lagged hRecv
      refine ⟨hSound.setReceiver hMem rfl ⟨hLength, hPlaced.received, hPlaced.joinedAt⟩,
        (keepsSources_setReceiver hKeeps hMem { r with next } rfl).trans ?_⟩
      simp only [Attended, skipped, hReceiver, hRecv]
      refine forall_congr' fun hGiven => ?_
      exact served_lagged hNext ((hKeeps r.state hGiven).served r hMem rfl)
    · rename_i n next hRecv
      cases hStep
      obtain ⟨hItem, rfl⟩ := Broadcast.recv_item hRecv
      let got : Receiver := { r with next := r.next + 1, received := r.received ++ [n] }
      have hSent : n < s.published.length :=
        hSound.sent r.state n (List.mem_append_left _ (List.mem_of_getElem? hItem))
      have hNew : Placed got (s.feeds r.state) s.published.length := hPlaced.item hItem hSent
      refine ⟨hSound.setReceiver hMem rfl hNew, (keepsSources_setReceiver hKeeps hMem got rfl).trans ?_⟩
      refine iff_of_true (fun hGiven => ?_) fun _ => ?_
      · exact (served_item hItem).mpr ((hKeeps r.state hGiven).served r hMem rfl)
      · simp only [skipped, hReceiver, hRecv]
  · cases hStep

theorem keepsSources_step (hSound : s.Sound) (hKeeps : s.KeepsSources)
    (hStep : s.step slots e = some (s', o)) : s'.Sound ∧ (s'.KeepsSources ↔ s.Attended slots e) := by
  cases e with
  | channels event => exact keepsSources_channels hSound hKeeps hStep
  | connect i ok =>
    simp only [step, Option.ite_none_right_eq_some] at hStep
    obtain ⟨⟨hMade, _⟩, hNext⟩ := hStep
    cases hNext
    refine ⟨hSound.setFeed hMade (hSound.sent i) (Nat.le_refl _), (keepsSources_setFeed hKeeps).trans ?_⟩
    refine forall_congr' fun hGiven => ⟨fun hKept => ?_, fun hOk => ?_⟩
    · cases ok with
      | true => rfl
      | false => exact absurd rfl hKept.1
    · subst hOk
      exact ⟨by simp, (hKeeps i hGiven).served⟩
  | subscribe i h =>
    obtain ⟨hSound', hKept⟩ := keepsSources_subscribe hSound hKeeps hStep
    exact ⟨hSound', iff_of_true hKept trivial⟩
  | fail i h =>
    obtain ⟨hSound', hKept⟩ := keepsSources_fail hSound hKeeps hStep
    exact ⟨hSound', iff_of_true hKept trivial⟩
  | publish id event =>
    cases hStep
    exact ⟨hSound.publish, keepsSources_publish hSound hKeeps⟩
  | message i => exact keepsSources_message hSound hKeeps hStep
  | recv i h => exact keepsSources_recv hSound hKeeps hStep
  | elapse ms =>
    cases hStep
    refine ⟨⟨hSound.handed, hSound.fresh, hSound.sent, hSound.owned, hSound.placed⟩, ?_⟩
    exact iff_of_true (fun i hGiven => ⟨(hKeeps i hGiven).source, (hKeeps i hGiven).served⟩) trivial

/-- In every state of a run the sources of the states that are given out have not ended and their
clients get what is published after they joined, exactly when every step of the run attends to them. -/
theorem keeps_sources_iff (slots : Nat) (es : List (Event V)) (s : RedisChannels V)
    (tr : List (Channels.Output V)) (hRun : Machine.run (step slots) new es = some (s, tr)) :
    (∀ es₁ es₂ s₁ tr₁, es = es₁ ++ es₂ → Machine.run (step slots) new es₁ = some (s₁, tr₁) →
      s₁.KeepsSources) ↔ Machine.Along (step slots) (Attended slots) new es := by
  have hKeeps : (new : RedisChannels V).KeepsSources := fun i _ => by
    constructor <;> simp [RedisChannels.new]
  exact Machine.always_iff_along Sound.new hKeeps
    (fun s₁ e s₂ o hSound hKeeps hStep => keepsSources_step hSound hKeeps hStep) hRun

instance (slots : Nat) (s : RedisChannels V) : (e : Event V) → Decidable (s.Attended slots e)
  | .connect i ok => inferInstanceAs (Decidable (Given s.channels i → ok = true))
  | .message i => inferInstanceAs
      (Decidable (Given s.channels i → s.listening i = false → (s.feeds i).source.Waits s.now))
  | .publish id _ => inferInstanceAs (Decidable (∀ r ∈ s.receivers, r.joinedAt.isSome = true →
      s.channelOf r.state = some id → Given s.channels r.state →
        (s.feeds r.state).source.isSubscribed = true))
  | .recv i h => inferInstanceAs (Decidable (Given s.channels i → skipped slots s i h = []))
  | .channels (.insert k) => inferInstanceAs (Decidable (∀ room ∈ stores s.channels k,
      Open s.channels room.state → (s.feeds room.state).source ≠ .ended))
  | .channels (.getOrInit _) | .channels (.reassignVoice _) | .channels (.voiceHost _ _)
  | .channels (.init _ _) | .channels (.entry _) | .channels (.join _ _) | .channels (.joined _ _)
  | .channels (.drop _ _) | .channels (.leave _ _) | .channels (.close _ _)
  | .subscribe _ _ | .fail _ _ | .elapse _ => .isTrue trivial

/-- A session gets the instance of channel 7, whose source subscribes. -/
def opened : List (Event Nat) :=
  [.channels (.getOrInit 7), .channels (.voiceHost 0 (some (some 1))), .channels (.init 0 true),
    .channels (.insert 0), .connect 0 true]

/-- The session joins and receives what another gateway publishes then, and leaves; the source outlives
the instance until the next message. -/
def visited : List (Event Nat) :=
  opened ++ [.channels (.join 0 ⟨1, 10, "a"⟩), .subscribe 0 0, .channels (.joined 0 0), .elapse 6000,
    .publish 7 (.joined ⟨2, 20, "b"⟩), .message 0, .recv 0 0, .channels (.drop 0 0), .channels (.leave 0 0),
    .channels (.close 0 0), .elapse 6000, .publish 7 (.left ⟨2, 20, "b"⟩), .message 0]

theorem keeps_sources_iff_visited : ∃ s tr,
    Machine.run (step 100) new visited = some (s, tr) ∧ (s.feeds 0).source = .ended ∧
      ∀ es₁ es₂ s₁ tr₁, visited = es₁ ++ es₂ → Machine.run (step 100) new es₁ = some (s₁, tr₁) →
        s₁.KeepsSources := by
  have hFacts : (Machine.run (step 100) new visited).map (fun last =>
    decide ((last.1.feeds 0).source = .ended)) = some true := by decide
  obtain ⟨⟨s, tr⟩, hRun, hLast⟩ := Option.map_eq_some_iff.mp hFacts
  exact ⟨s, tr, hRun, of_decide_eq_true hLast,
    (keeps_sources_iff 100 visited s tr hRun).mpr (by decide)⟩

/-- The session fails before it joins, and a message comes from another gateway. -/
def abandoned : List (Event Nat) :=
  opened ++ [.elapse 5001, .publish 7 (.joined ⟨2, 20, "b"⟩), .message 0]

theorem not_keeps_sources : ¬ ∀ (es : List (Event Nat)) (s : RedisChannels Nat)
    (tr : List (Channels.Output Nat)), Machine.run (step 100) new es = some (s, tr) →
      s.KeepsSources := by
  intro hAll
  have hFacts : (Machine.run (step 100) new abandoned).map (fun last =>
      decide (Given last.1.channels 0 ∧ (last.1.feeds 0).source = .ended)) = some true := by decide
  obtain ⟨⟨s, tr⟩, hRun, hLast⟩ := Option.map_eq_some_iff.mp hFacts
  obtain ⟨hGiven, hEnded⟩ := of_decide_eq_true hLast
  exact (hAll abandoned s tr hRun 0 hGiven).source hEnded

/-- A client that joins before the source has subscribed misses what is published until then. -/
example : ¬ Machine.Along (step 100) (Attended 100) new
    [.channels (.getOrInit 7), .channels (.voiceHost 0 (some (some 1))), .channels (.init 0 true),
      .channels (.insert 0), .channels (.join 0 ⟨1, 10, "a"⟩), .subscribe 0 0, .channels (.joined 0 0),
      .publish 7 (.joined ⟨2, 20, "b"⟩)] := by
  decide

end Voices.Gateway.RedisChannels
