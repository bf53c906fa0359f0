import Voices.Gateway.Channels

/-!
# States that no call has returned

Until a call returns a room, no session can join its state. A call that is about
to store a room is alone with it, so that a state has no handle when it is stored.
-/

namespace Voices.Gateway.Channels

open Semantics VoiceServer Std

variable {V : Type} {s s' : Channels V} {e : Event V} {o : List (Output V)} {i : StateId}

/-- A call has returned the state. -/
def Returned (s : Channels V) (i : StateId) : Prop := ∃ room ∈ s.returned, room.state = i

/-- No call but `k` is about to store the state. -/
def Spared (s : Channels V) (k : CallId) (i : StateId) : Prop :=
  ∀ (n : CallId) (call : Call V) (room : Channel V), s.calls[n]? = some call →
    call.phase = .inserting room → room.state = i → n = k

/-- What is stored has been returned, what a call is about to store has not, nor by another call,
and only what has been returned has handles. -/
structure Handed (s : Channels V) : Prop where
  made : ∀ i, s.Returned i → i < s.states.length
  stored : ∀ (id : Uuid) (room : Channel V), s.channelMap[id]? = some room → s.Returned room.state
  pending : ∀ (k : CallId) (call : Call V) (room : Channel V), s.calls[k]? = some call →
    call.phase = .inserting room →
    room.state < s.states.length ∧ ¬ s.Returned room.state ∧ s.Spared k room.state
  joined : ∀ (i : StateId) (events : ChannelEvents), s.states[i]? = some events →
    events.handles ≠ [] → s.Returned i

theorem Handed.new : (new : Channels V).Handed := by
  constructor <;> simp [Channels.new, Returned]

theorem returned_append_iff {found : Option (Channel V)} :
    Returned { s with returned := s.returned ++ found.toList } i ↔
      s.Returned i ∨ ∃ room ∈ found, room.state = i := by
  simp only [Returned, List.mem_append, Option.mem_toList]
  constructor
  · rintro ⟨room, hOld | hNew, hRoom⟩
    · exact .inl ⟨room, hOld, hRoom⟩
    · exact .inr ⟨room, hNew, hRoom⟩
  · rintro (⟨room, hOld, hRoom⟩ | ⟨room, hNew, hRoom⟩)
    · exact ⟨room, .inl hOld, hRoom⟩
    · exact ⟨room, .inr hNew, hRoom⟩

theorem Handed.addCall (hHanded : s.Handed) {call : Call V}
    (hPhase : call.phase = .asking ∨ call.phase = .returned) :
    Handed { s with calls := s.calls ++ [call] } := by
  have hOld : ∀ (k : CallId) (other : Call V) (room : Channel V),
      (s.calls ++ [call])[k]? = some other → other.phase = .inserting room → s.calls[k]? = some other := by
    intro k other room hOther hInserting
    rcases getElem?_snoc_iff.mp hOther with hOld | ⟨_, rfl⟩
    · exact hOld
    · simp [hInserting] at hPhase
  refine ⟨hHanded.made, hHanded.stored, fun k other room hOther hInserting => ?_, hHanded.joined⟩
  obtain ⟨hMade, hFree, hSpared⟩ :=
    hHanded.pending k other room (hOld k other room hOther hInserting) hInserting
  refine ⟨hMade, hFree, fun n third room' hThird hPhase' hSame => ?_⟩
  exact hSpared n third room' (hOld n third room' hThird hPhase') hPhase' hSame

/-- The phase of a call changes, to `inserting` only with a state that is its own. -/
theorem Handed.setPhase (hHanded : s.Handed) {k : CallId} {call : Call V}
    (hCall : s.calls[k]? = some call) {phase : Phase V}
    (hOwn : ∀ room, phase = .inserting room →
      room.state < s.states.length ∧ ¬ s.Returned room.state ∧ s.Spared k room.state) :
    (s.setPhase k call phase).Handed := by
  refine ⟨hHanded.made, hHanded.stored, fun n other room hOther hInserting => ?_, hHanded.joined⟩
  have hBefore : room.state < s.states.length ∧ ¬ s.Returned room.state ∧ s.Spared n room.state := by
    rcases (getElem?_set_iff hCall).mp hOther with ⟨rfl, rfl⟩ | ⟨_, hOld⟩
    · exact hOwn room hInserting
    · exact hHanded.pending n other room hOld hInserting
  obtain ⟨hMade, hFree, hSpared⟩ := hBefore
  refine ⟨hMade, hFree, fun m third room' hThird hPhase' hSame => ?_⟩
  rcases (getElem?_set_iff hCall).mp hThird with ⟨rfl, rfl⟩ | ⟨_, hOld⟩
  · -- the call's own new room, which only this call has
    rcases (getElem?_set_iff hCall).mp hOther with ⟨hEq, _⟩ | ⟨_, hOldOther⟩
    · exact hEq.symm
    · exact ((hOwn room' hPhase').2.2 n other room hOldOther hInserting hSame.symm).symm
  · exact hSpared m third room' hOld hPhase' hSame

/-- A room is returned that no call is about to store. -/
theorem Handed.publish (hHanded : s.Handed) {found : Option (Channel V)}
    (hFound : ∀ room ∈ found, room.state < s.states.length ∧ ∀ (n : CallId) (call : Call V)
      (other : Channel V), s.calls[n]? = some call → call.phase = .inserting other →
        other.state ≠ room.state) :
    Handed { s with returned := s.returned ++ found.toList } := by
  constructor
  case made =>
    intro i hReturned
    rcases returned_append_iff.mp hReturned with hOld | ⟨room, hRoom, rfl⟩
    · exact hHanded.made i hOld
    · exact (hFound room hRoom).1
  case stored => exact fun id room hRoom => returned_append_iff.mpr (.inl (hHanded.stored id room hRoom))
  case pending =>
    intro n call other hCall hInserting
    obtain ⟨hMade, hFree, hSpared⟩ := hHanded.pending n call other hCall hInserting
    refine ⟨hMade, fun hReturned => ?_, hSpared⟩
    rcases returned_append_iff.mp hReturned with hOld | ⟨room, hRoom, hSame⟩
    · exact hFree hOld
    · exact (hFound room hRoom).2 n call other hCall hInserting hSame.symm
  case joined =>
    exact fun n events hState hNe => returned_append_iff.mpr (.inl (hHanded.joined n events hState hNe))

/-- A call returns, with a room that no other call is about to store. -/
theorem Handed.answered (hHanded : s.Handed) {k : CallId} {call : Call V}
    (hCall : s.calls[k]? = some call) {found : Option (Channel V)}
    (hFound : ∀ room ∈ found, room.state < s.states.length ∧ s.Spared k room.state) :
    (s.answered k call found).Handed := by
  have hPhase : (s.setPhase k call .returned).Handed := hHanded.setPhase hCall (by simp)
  refine hPhase.publish fun room hRoom => ⟨(hFound room hRoom).1, ?_⟩
  intro n other other' hOther hInserting hSame
  rcases (getElem?_set_iff hCall).mp hOther with ⟨_, rfl⟩ | ⟨hNe, hOld⟩
  · cases hInserting
  · exact hNe ((hFound room hRoom).2 n other other' hOld hInserting hSame)

theorem Handed.pending_ne (hHanded : s.Handed) (hReturned : s.Returned i) {n : CallId} {call : Call V}
    {room : Channel V} (hCall : s.calls[n]? = some call) (hInserting : call.phase = .inserting room) :
    room.state ≠ i := by
  rintro rfl
  exact (hHanded.pending n call room hCall hInserting).2.1 hReturned

theorem Handed.answered_of_returned (hHanded : s.Handed) {k : CallId} {call : Call V}
    (hCall : s.calls[k]? = some call) {room : Channel V} (hReturned : s.Returned room.state) :
    (s.answered k call (some room)).Handed := by
  refine hHanded.answered hCall fun found hFound => ?_
  cases hFound
  refine ⟨hHanded.made room.state hReturned, fun n other room' hOther hInserting hSame => ?_⟩
  exact absurd hSame (hHanded.pending_ne hReturned hOther hInserting)

/-- A room that has been returned is stored. -/
theorem Handed.store (hHanded : s.Handed) (id : Uuid) {room : Channel V}
    (hReturned : s.Returned room.state) :
    Handed { s with channelMap := s.channelMap.insert id room } := by
  refine ⟨hHanded.made, fun other found hFound => ?_, hHanded.pending, hHanded.joined⟩
  rcases lookup_insert_iff.mp hFound with ⟨_, rfl⟩ | ⟨_, hOld⟩
  · exact hReturned
  · exact hHanded.stored other found hOld

theorem Handed.setLock (hHanded : s.Handed) (lock : Option CallId) : Handed { s with lock } :=
  ⟨hHanded.made, hHanded.stored, hHanded.pending, hHanded.joined⟩

theorem Handed.make (hHanded : s.Handed) (id : Uuid) (voice : V) : (s.make id voice).2.Handed := by
  have hLength : (s.make id voice).2.states.length = s.states.length + 1 := by simp [Channels.make]
  constructor
  case made => exact fun i hReturned => hLength ▸ Nat.lt_succ_of_lt (hHanded.made i hReturned)
  case stored => exact hHanded.stored
  case pending =>
    intro k call room hCall hInserting
    obtain ⟨hMade, hRest⟩ := hHanded.pending k call room hCall hInserting
    exact ⟨hLength ▸ Nat.lt_succ_of_lt hMade, hRest⟩
  case joined =>
    intro n events hState hNe
    rcases getElem?_snoc_iff.mp hState with hOld | ⟨_, rfl⟩
    · exact hHanded.joined n events hOld hNe
    · exact absurd rfl hNe

/-- The state that is made next is nobody's. -/
theorem Handed.next (hHanded : s.Handed) (k : CallId) :
    ¬ s.Returned s.states.length ∧ s.Spared k s.states.length := by
  refine ⟨fun hReturned => Nat.lt_irrefl _ (hHanded.made _ hReturned), ?_⟩
  intro n call room hCall hInserting hSame
  exact absurd hSame (Nat.ne_of_lt (hHanded.pending n call room hCall hInserting).1)

theorem Handed.setState (hHanded : s.Handed) {events events' : ChannelEvents}
    (hState : s.states[i]? = some events) (hJoined : events'.handles ≠ [] → s.Returned i) :
    Handed { s with states := s.states.set i events' } := by
  have hLength : (s.states.set i events').length = s.states.length := List.length_set
  constructor
  case made => exact fun n hReturned => hLength ▸ hHanded.made n hReturned
  case stored => exact hHanded.stored
  case pending =>
    intro k call room hCall hInserting
    obtain ⟨hMade, hRest⟩ := hHanded.pending k call room hCall hInserting
    exact ⟨hLength ▸ hMade, hRest⟩
  case joined =>
    intro n ev hEv hNe
    rcases (getElem?_set_iff hState).mp hEv with ⟨rfl, rfl⟩ | ⟨_, hOld⟩
    · exact hJoined hNe
    · exact hHanded.joined n ev hOld hNe

/-- Handles are made by a join only. -/
theorem handles_before {events events' : ChannelEvents} {event : ChannelEvents.Event}
    {output : List ChannelEvents.Output} (hEffect : events.Effect event events' output)
    (hEvent : ∀ info, event ≠ .join info) (hNe : events'.handles ≠ []) : events.handles ≠ [] := by
  cases hEffect with
  | entered info | refused info => exact absurd rfl (hEvent info)
  | joined h j hHandle | dropped h j hHandle | emptied h j hHandle | left h j hHandle
  | closed h j hHandle => exact List.ne_nil_of_mem (List.mem_of_getElem? hHandle)

theorem Effect.returned (h : Effect s e s' o) (hReturned : s.Returned i) : s'.Returned i := by
  obtain ⟨room, hMem, hRoom⟩ := hReturned
  cases h with
  | found | failed | inserted | existing | revoiced | created | unlocked =>
    exact ⟨room, List.mem_append_left _ hMem, hRoom⟩
  | _ => exact ⟨room, hMem, hRoom⟩

theorem Handed.effect (hHanded : s.Handed) (h : Effect s e s' o) : s'.Handed := by
  cases h with
  | found id room hLock hRoom =>
    have hReturned : s.Returned room.state := hHanded.stored id room hRoom
    have hAdded : Handed { s with calls := s.calls ++ [⟨id, false, .returned⟩] } :=
      hHanded.addCall (.inr rfl)
    have hRoomFree : ∀ found ∈ some room, found.state < s.states.length ∧
        ∀ (n : CallId) (call : Call V) (other : Channel V),
          (s.calls ++ [⟨id, false, .returned⟩])[n]? = some call → call.phase = .inserting other →
            other.state ≠ found.state := by
      rintro found hFound
      cases hFound
      exact ⟨hHanded.made room.state hReturned, fun n call other => hAdded.pending_ne hReturned⟩
    exact hAdded.publish hRoomFree
  | asked _ id reassign => exact hHanded.addCall (.inl rfl)
  | resumed _ k call phase hCall hPhase =>
    refine hHanded.setPhase hCall ?_
    rcases hPhase with ⟨_, rfl⟩ | ⟨_, rfl⟩ <;> simp
  | failed _ k call result hCall => exact hHanded.answered hCall (by simp)
  | made k call voice hCall hPhase =>
    refine (hHanded.make call.id voice).setPhase hCall fun room hRoom => ?_
    cases hRoom
    obtain ⟨hFree, hSpared⟩ := hHanded.next k
    exact ⟨by simp [Channels.make], hFree, hSpared⟩
  | inserted k call room hLock hCall hPhase hVacant =>
    obtain ⟨hMade, _, hSpared⟩ := hHanded.pending k call room hCall hPhase
    have hAnswered : (s.answered k call (some room)).Handed :=
      hHanded.answered hCall fun found hFound => by cases hFound; exact ⟨hMade, hSpared⟩
    exact hAnswered.store call.id (returned_append_iff.mpr (.inr ⟨room, rfl, rfl⟩))
  | existing k call found hLock hCall hFound =>
    exact hHanded.answered_of_returned hCall (hHanded.stored call.id found hFound)
  | revoiced k call chan voice hLock hCall hPhase hFound =>
    have hReturned : s.Returned chan.state := hHanded.stored call.id chan hFound
    have hAnswered : (s.answered k call (some { chan with voice })).Handed :=
      hHanded.answered_of_returned hCall hReturned
    exact hAnswered.store call.id (returned_append_iff.mpr (.inl hReturned))
  | locked k call voice hLock hCall => exact (hHanded.setPhase hCall (by simp)).setLock (some k)
  | created k call voice hLock hCall hPhase =>
    have hAnswered : ((s.make call.id voice).2.answered k call (some (s.make call.id voice).1)).Handed := by
      refine (hHanded.make call.id voice).answered hCall fun room hRoom => ?_
      cases hRoom
      exact ⟨by simp [Channels.make], (hHanded.next k).2⟩
    exact (hAnswered.store call.id (returned_append_iff.mpr (.inr ⟨_, rfl, rfl⟩))).setLock none
  | unlocked k call voice hLock hCall => exact (hHanded.setLock none).answered hCall (by simp)
  | joined n info channel events events' output hChannel hState hEffect =>
    exact hHanded.setState hState fun _ => ⟨channel, List.mem_of_getElem? hChannel, rfl⟩
  | stepped _ n h events events' event output hEvent hState hEffect =>
    refine hHanded.setState hState fun hNe => hHanded.joined n events hState (handles_before hEffect ?_ hNe)
    rintro info rfl
    rcases hEvent with ⟨_, h⟩ | ⟨_, h⟩ | ⟨_, h⟩ <;> cases h
  | closed n h events events' output hLock hState hEffect =>
    have hSet : Handed { s with states := s.states.set n events' } :=
      hHanded.setState hState fun hNe =>
        hHanded.joined n events hState (handles_before hEffect (by simp) hNe)
    exact ⟨hSet.made, fun id room hRoom => hSet.stored id room (lookup_erase_iff.mp hRoom).2,
      hSet.pending, hSet.joined⟩

end Voices.Gateway.Channels
