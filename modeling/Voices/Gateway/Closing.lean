import Voices.Gateway.Channels

/-!
# Closing a channel

`ChannelMap::close` removes whatever stands under the id. The entry is that of
the state that emptied as long as no leave runs on a state that is closed
already, and no leave empties a state that still has a handle.
-/

namespace Voices.Gateway

open Semantics VoiceServer Std

namespace Channels

variable {V : Type}

def Stored (s : Channels V) (id : Uuid) (i : StateId) : Prop :=
  ∃ ch, s.channelMap[id]? = some ch ∧ ch.state = i

/-- A state with a live handle is the one stored in the map, and the only such state of its id. -/
def Sole (s : Channels V) : Prop :=
  ∀ (i : StateId) (events : ChannelEvents), s.states[i]? = some events →
    (∃ j ∈ events.handles, j.stage = .live) →
    s.Stored events.channelId i ∧
      ∀ (i' : StateId) (events' : ChannelEvents), s.states[i']? = some events' →
        (∃ j ∈ events'.handles, j.stage = .live) → events'.channelId = events.channelId → i' = i

/-- Every close removes the entry of its own state, or none. -/
def ClosesOwn (tr : List (Output V)) : Prop :=
  ∀ (i : StateId) (removed : Channel V), .closed i (some removed) ∈ tr → removed.state = i

/-- A leave runs on a state that is not closed, and in which no handle is live or being made
unless another client is present. -/
def Unshared (events : ChannelEvents) (j : ChatRoomJoined) : Prop :=
  events.locallyPresent.live = true ∧
    ((∀ j' ∈ events.handles, ¬ j'.held) ∨
      ∃ id ∈ events.locallyPresent.inner.keys, id ≠ j.info.clientId)

instance (events : ChannelEvents) (j : ChatRoomJoined) : Decidable (Unshared events j) :=
  inferInstanceAs (Decidable (_ ∧ (_ ∨ _)))

def Undisturbed (s : Channels V) : Event V → Prop
  | .leave i h => ∀ events ∈ s.states[i]?, ∀ j ∈ events.handles[h]?, Unshared events j
  | _ => True

instance (s : Channels V) : (e : Event V) → Decidable (s.Undisturbed e)
  | .leave i h => inferInstanceAs
      (Decidable (∀ events ∈ s.states[i]?, ∀ j ∈ events.handles[h]?, Unshared events j))
  | .getOrInit _ => .isTrue trivial
  | .reassignVoice _ => .isTrue trivial
  | .voiceHost _ _ => .isTrue trivial
  | .init _ _ => .isTrue trivial
  | .insert _ => .isTrue trivial
  | .entry _ => .isTrue trivial
  | .join _ _ => .isTrue trivial
  | .joined _ _ => .isTrue trivial
  | .drop _ _ => .isTrue trivial
  | .close _ _ => .isTrue trivial

/-- What keeps the entry of the map and the handles of the states together. -/
structure Sound (s : Channels V) : Prop where
  stored : ∀ (id : Uuid) (ch : Channel V), s.channelMap[id]? = some ch →
    ∃ events, s.states[ch.state]? = some events ∧ events.channelId = id
  pending : ∀ (k : CallId) (call : Call V) (room : Channel V), s.calls[k]? = some call →
    call.phase = .inserting room →
    ∃ events, s.states[room.state]? = some events ∧ events.channelId = call.id
  locked : ∀ (k : CallId) (call : Call V) (voice : V), s.lock = some k → s.calls[k]? = some call →
    call.phase = .vacant voice → s.channelMap[call.id]? = none
  known : ∀ ch ∈ s.returned, ch.state < s.states.length
  published : ∀ ch ∈ s.returned, ∀ events : ChannelEvents, s.states[ch.state]? = some events →
    events.locallyPresent.live = true → s.Stored events.channelId ch.state
  owned : ∀ (i : StateId) (events : ChannelEvents), s.states[i]? = some events →
    events.handles ≠ [] → ∃ ch ∈ s.returned, ch.state = i
  closing : ∀ (i : StateId) (events : ChannelEvents) (h : HandleId), s.states[i]? = some events →
    events.guard = some h → s.Stored events.channelId i ∧ events.locallyPresent.live = false
  held : ∀ (i : StateId) (events : ChannelEvents), s.states[i]? = some events →
    ∀ j ∈ events.handles, j.held → events.locallyPresent.live = true

variable {s s' : Channels V} {e : Event V} {o : List (Output V)}

theorem Stored.unique {id : Uuid} {i i' : StateId} (h : s.Stored id i) (h' : s.Stored id i') : i' = i := by
  obtain ⟨ch, hMap, rfl⟩ := h
  obtain ⟨ch', hMap', rfl⟩ := h'
  cases hMap.symm.trans hMap'
  rfl

theorem Sound.sole (hSound : s.Sound) : s.Sole := by
  have hStored : ∀ (i : StateId) (events : ChannelEvents), s.states[i]? = some events →
      (∃ j ∈ events.handles, j.stage = .live) → s.Stored events.channelId i := by
    rintro i events hState ⟨j, hMem, hLive⟩
    obtain ⟨ch, hReturned, rfl⟩ := hSound.owned i events hState (List.ne_nil_of_mem hMem)
    exact hSound.published ch hReturned events hState (hSound.held _ events hState j hMem (.inr hLive))
  intro i events hState hLive
  refine ⟨hStored i events hState hLive, fun i' events' hState' hLive' hSame => ?_⟩
  exact (hStored i events hState hLive).unique (hSame ▸ hStored i' events' hState' hLive')

theorem Sound.setState (hSound : s.Sound) {i : StateId} {events events' : ChannelEvents}
    (hState : s.states[i]? = some events) (hId : events'.channelId = events.channelId)
    (hLive : events'.locallyPresent.live = true → events.locallyPresent.live = true)
    (hOwned : events'.handles ≠ [] → ∃ ch ∈ s.returned, ch.state = i)
    (hGuard : ∀ h, events'.guard = some h →
      s.Stored events.channelId i ∧ events'.locallyPresent.live = false)
    (hHeld : ∀ j ∈ events'.handles, j.held → events'.locallyPresent.live = true) :
    Sound { s with states := s.states.set i events' } := by
  have hKept : ∀ (id : Uuid) (n : StateId), (∃ ev, s.states[n]? = some ev ∧ ev.channelId = id) →
      ∃ ev, (s.states.set i events')[n]? = some ev ∧ ev.channelId = id := by
    rintro id n ⟨ev, hEv, rfl⟩
    by_cases hEq : n = i
    · subst hEq
      cases hState.symm.trans hEv
      exact ⟨events', getElem?_set_here hState, hId⟩
    · exact ⟨ev, getElem?_set_there hState hEq hEv, rfl⟩
  constructor
  case stored => exact fun id ch hMap => hKept id ch.state (hSound.stored id ch hMap)
  case pending =>
    intro k call room hCall hPhase
    exact hKept call.id room.state (hSound.pending k call room hCall hPhase)
  case locked => exact hSound.locked
  case known => simpa using hSound.known
  case published =>
    intro ch hMem ev hEv hEvLive
    rcases (getElem?_set_iff hState).mp hEv with ⟨hEq, rfl⟩ | ⟨_, hOld⟩
    · rw [hId]
      exact hSound.published ch hMem events (hEq ▸ hState) (hLive hEvLive)
    · exact hSound.published ch hMem ev hOld hEvLive
  case owned =>
    intro n ev hEv hNe
    rcases (getElem?_set_iff hState).mp hEv with ⟨rfl, rfl⟩ | ⟨_, hOld⟩
    · exact hOwned hNe
    · exact hSound.owned n ev hOld hNe
  case closing =>
    intro n ev h hEv hEvGuard
    rcases (getElem?_set_iff hState).mp hEv with ⟨rfl, rfl⟩ | ⟨_, hOld⟩
    · rw [hId]
      exact hGuard h hEvGuard
    · exact hSound.closing n ev h hOld hEvGuard
  case held =>
    intro n ev hEv
    rcases (getElem?_set_iff hState).mp hEv with ⟨rfl, rfl⟩ | ⟨_, hOld⟩
    · exact hHeld
    · exact hSound.held n ev hOld

theorem Sound.erase (hSound : s.Sound) (hLock : s.lock = none) {i : StateId} {events : ChannelEvents}
    (hState : s.states[i]? = some events) (hStored : s.Stored events.channelId i)
    (hClosed : events.locallyPresent.live = false) (hGuard : events.guard = none) :
    Sound { s with channelMap := s.channelMap.erase events.channelId } := by
  have hKept : ∀ (n : StateId) (ev : ChannelEvents), s.states[n]? = some ev → n ≠ i →
      s.Stored ev.channelId n →
      Stored { s with channelMap := s.channelMap.erase events.channelId } ev.channelId n := by
    rintro n ev hEv hNe ⟨ch, hMap, hCh⟩
    refine ⟨ch, lookup_erase_iff.mpr ⟨fun hId => ?_, hMap⟩, hCh⟩
    exact hNe (Stored.unique (hId ▸ hStored) ⟨ch, hMap, hCh⟩)
  constructor
  case stored =>
    exact fun id ch hMap => hSound.stored id ch (lookup_erase_iff.mp hMap).2
  case pending => exact hSound.pending
  case locked => exact fun k _ _ hSome => absurd (hLock.symm.trans hSome) (by simp)
  case known => exact hSound.known
  case published =>
    intro ch hMem ev hEv hLive
    refine hKept ch.state ev hEv ?_ (hSound.published ch hMem ev hEv hLive)
    rintro rfl
    cases hState.symm.trans hEv
    cases hClosed.symm.trans hLive
  case owned => exact hSound.owned
  case closing =>
    intro n ev h hEv hEvGuard
    obtain ⟨hEvStored, hEvClosed⟩ := hSound.closing n ev h hEv hEvGuard
    refine ⟨hKept n ev hEv ?_ hEvStored, hEvClosed⟩
    rintro rfl
    cases hState.symm.trans hEv
    cases hGuard.symm.trans hEvGuard
  case held => exact hSound.held

theorem Sound.insert (hSound : s.Sound) (hLock : s.lock = none) (id : Uuid) (room : Channel V)
    {events : ChannelEvents} (hEntry : ∀ ch ∈ s.channelMap[id]?, ch.state = room.state)
    (hState : s.states[room.state]? = some events) (hId : events.channelId = id) :
    Sound { s with channelMap := s.channelMap.insert id room } := by
  have hKept : ∀ (other : Uuid) (n : StateId), s.Stored other n →
      Stored { s with channelMap := s.channelMap.insert id room } other n := by
    rintro other n ⟨ch, hMap, hCh⟩
    by_cases hSame : id = other
    · subst hSame
      exact ⟨room, by simp, (hEntry ch hMap).symm.trans hCh⟩
    · exact ⟨ch, by simp [TreeMap.getElem?_insert, hSame, hMap], hCh⟩
  constructor
  case stored =>
    intro other ch hMap
    rcases lookup_insert_iff.mp hMap with ⟨rfl, rfl⟩ | ⟨_, hOld⟩
    · exact ⟨events, hState, hId⟩
    · exact hSound.stored other ch hOld
  case pending => exact hSound.pending
  case locked => exact fun k _ _ hSome => absurd (hLock.symm.trans hSome) (by simp)
  case known => exact hSound.known
  case published =>
    exact fun ch hMem ev hEv hLive => hKept _ _ (hSound.published ch hMem ev hEv hLive)
  case owned => exact hSound.owned
  case closing =>
    exact fun n ev h hEv hGuard => (hSound.closing n ev h hEv hGuard).imp_left (hKept _ _)
  case held => exact hSound.held

theorem Sound.publish (hSound : s.Sound) {id : Uuid} {room : Channel V}
    (hRoom : s.channelMap[id]? = some room) : Sound { s with returned := s.returned ++ [room] } := by
  obtain ⟨events, hState, hId⟩ := hSound.stored id room hRoom
  constructor
  case stored => exact hSound.stored
  case pending => exact hSound.pending
  case locked => exact hSound.locked
  case known =>
    intro ch hMem
    rcases List.mem_append.mp hMem with hOld | hNew
    · exact hSound.known ch hOld
    · cases List.mem_singleton.mp hNew
      exact (List.getElem?_eq_some_iff.mp hState).1
  case published =>
    intro ch hMem ev hEv hLive
    rcases List.mem_append.mp hMem with hOld | hNew
    · exact hSound.published ch hOld ev hEv hLive
    · cases List.mem_singleton.mp hNew
      cases hState.symm.trans hEv
      exact ⟨room, hId ▸ hRoom, rfl⟩
  case owned =>
    intro n ev hEv hNe
    obtain ⟨ch, hMem, hCh⟩ := hSound.owned n ev hEv hNe
    exact ⟨ch, List.mem_append_left _ hMem, hCh⟩
  case closing => exact hSound.closing
  case held => exact hSound.held

theorem Sound.setPhase (hSound : s.Sound) {k : CallId} {call : Call V}
    (hCall : s.calls[k]? = some call) {phase : Phase V}
    (hPending : ∀ room, phase = .inserting room →
      ∃ events, s.states[room.state]? = some events ∧ events.channelId = call.id)
    (hVacant : ∀ voice, phase = .vacant voice → s.lock = some k → s.channelMap[call.id]? = none) :
    (s.setPhase k call phase).Sound := by
  constructor
  case stored => exact hSound.stored
  case pending =>
    intro n other room hOther hPhase
    rcases (getElem?_set_iff hCall).mp hOther with ⟨_, rfl⟩ | ⟨_, hOld⟩
    · exact hPending room hPhase
    · exact hSound.pending n other room hOld hPhase
  case locked =>
    intro n other voice hLock hOther hPhase
    rcases (getElem?_set_iff hCall).mp hOther with ⟨rfl, rfl⟩ | ⟨_, hOld⟩
    · exact hVacant voice hPhase hLock
    · exact hSound.locked n other voice hLock hOld hPhase
  case known => exact hSound.known
  case published => exact hSound.published
  case owned => exact hSound.owned
  case closing => exact hSound.closing
  case held => exact hSound.held

theorem Sound.addCall (hSound : s.Sound) {call : Call V}
    (hPhase : call.phase = .asking ∨ call.phase = .returned) :
    Sound { s with calls := s.calls ++ [call] } := by
  constructor
  case stored => exact hSound.stored
  case pending =>
    intro k other room hOther hInserting
    rcases getElem?_snoc_iff.mp hOther with hOld | ⟨_, rfl⟩
    · exact hSound.pending k other room hOld hInserting
    · simp [hInserting] at hPhase
  case locked =>
    intro k other voice hLock hOther hVacant
    rcases getElem?_snoc_iff.mp hOther with hOld | ⟨_, rfl⟩
    · exact hSound.locked k other voice hLock hOld hVacant
    · simp [hVacant] at hPhase
  case known => exact hSound.known
  case published => exact hSound.published
  case owned => exact hSound.owned
  case closing => exact hSound.closing
  case held => exact hSound.held

theorem Sound.setLock (hSound : s.Sound) (lock : Option CallId)
    (hVacant : ∀ (k : CallId) (call : Call V) (voice : V), lock = some k → s.calls[k]? = some call →
      call.phase = .vacant voice → s.channelMap[call.id]? = none) : Sound { s with lock } where
  stored := hSound.stored
  pending := hSound.pending
  locked := hVacant
  known := hSound.known
  published := hSound.published
  owned := hSound.owned
  closing := hSound.closing
  held := hSound.held

theorem Sound.make (hSound : s.Sound) (id : Uuid) :
    Sound { s with states := s.states ++ [.new id] } := by
  have hKept : ∀ (other : Uuid) (n : StateId), (∃ ev, s.states[n]? = some ev ∧ ev.channelId = other) →
      ∃ ev, (s.states ++ [ChannelEvents.new id])[n]? = some ev ∧ ev.channelId = other := by
    rintro other n ⟨ev, hEv, hId⟩
    exact ⟨ev, getElem?_snoc_iff.mpr (.inl hEv), hId⟩
  constructor
  case stored => exact fun other ch hMap => hKept other ch.state (hSound.stored other ch hMap)
  case pending =>
    intro k call room hCall hPhase
    exact hKept call.id room.state (hSound.pending k call room hCall hPhase)
  case locked => exact hSound.locked
  case known =>
    intro ch hMem
    have hLt : ch.state < s.states.length := hSound.known ch hMem
    simpa using Nat.lt_succ_of_lt hLt
  case published =>
    intro ch hMem ev hEv hLive
    rcases getElem?_snoc_iff.mp hEv with hOld | ⟨hEq, _⟩
    · exact hSound.published ch hMem ev hOld hLive
    · exact absurd hEq (Nat.ne_of_lt (hSound.known ch hMem))
  case owned =>
    intro n ev hEv hNe
    rcases getElem?_snoc_iff.mp hEv with hOld | ⟨_, rfl⟩
    · exact hSound.owned n ev hOld hNe
    · exact absurd rfl hNe
  case closing =>
    intro n ev h hEv hGuard
    rcases getElem?_snoc_iff.mp hEv with hOld | ⟨_, rfl⟩
    · exact hSound.closing n ev h hOld hGuard
    · cases hGuard
  case held =>
    intro n ev hEv j hMem hHeld
    rcases getElem?_snoc_iff.mp hEv with hOld | ⟨_, rfl⟩
    · exact hSound.held n ev hOld j hMem hHeld
    · cases hMem

theorem Sound.answered_none (hSound : s.Sound) {k : CallId} {call : Call V}
    (hCall : s.calls[k]? = some call) : (s.answered k call none).Sound := by
  have hPhase : (s.setPhase k call .returned).Sound := hSound.setPhase hCall (by simp) (by simp)
  simp only [Channels.answered, Option.toList_none, List.append_nil]
  exact hPhase

theorem Sound.answered_some (hSound : s.Sound) {k : CallId} {call : Call V}
    (hCall : s.calls[k]? = some call) {room : Channel V} (hRoom : s.channelMap[call.id]? = some room) :
    (s.answered k call (some room)).Sound :=
  (hSound.setPhase hCall (by simp) (by simp)).publish hRoom

/-- A step of one channel state that does not close it and leaves under the condition. -/
theorem Sound.stepped (hSound : s.Sound) {i : StateId} {events events' : ChannelEvents}
    {event : ChannelEvents.Event} {output : List ChannelEvents.Output}
    (hState : s.states[i]? = some events) (hEffect : events.Effect event events' output)
    (hJoin : ∀ info, event = .join info → ∃ ch ∈ s.returned, ch.state = i)
    (hLeave : ∀ h, event = .leave h → ∀ j ∈ events.handles[h]?, Unshared events j)
    (hClosed : ∀ h, event ≠ .closed h) :
    Sound { s with states := s.states.set i events' } := by
  have hOwned : events.handles ≠ [] → ∃ ch ∈ s.returned, ch.state = i := hSound.owned i events hState
  have hGuard : ∀ h, events.guard = some h →
      s.Stored events.channelId i ∧ events.locallyPresent.live = false :=
    fun h => hSound.closing i events h hState
  have hHeld : ∀ j ∈ events.handles, j.held → events.locallyPresent.live = true :=
    hSound.held i events hState
  have hOthers {h : HandleId} {j : ChatRoomJoined} {stage : Stage} (hHandle : events.handles[h]? = some j)
      (hStage : ¬ ({ j with stage } : ChatRoomJoined).held) :
      ∀ d ∈ (events.setStage h j stage).handles, d.held → d ∈ events.handles := by
    intro d hMem hDHeld
    rcases List.mem_or_eq_of_mem_set hMem with hOld | rfl
    · exact hOld
    · exact absurd hDHeld hStage
  have hSome {h : HandleId} {j : ChatRoomJoined} (hHandle : events.handles[h]? = some j) :
      ∃ ch ∈ s.returned, ch.state = i := hOwned (List.ne_nil_of_mem (List.mem_of_getElem? hHandle))
  cases hEffect with
  | entered info hFree hLive =>
    obtain ⟨_, hStill, _⟩ := LocallyPresent.join_of_live hLive info
    exact hSound.setState hState rfl (fun _ => hLive) (fun _ => hJoin info rfl)
      (fun h hTaken => absurd (hFree.symm.trans hTaken) (by simp)) (fun _ _ _ => hStill)
  | refused => exact hSound.setState hState rfl id hOwned hGuard hHeld
  | joined h j hHandle hStage =>
    refine hSound.setState hState rfl id (fun _ => hSome hHandle) hGuard ?_
    intro _ _ _
    exact hHeld j (List.mem_of_getElem? hHandle) (.inl hStage)
  | dropped h j hHandle hStage =>
    refine hSound.setState hState rfl id (fun _ => hSome hHandle) hGuard ?_
    intro d hMem hDHeld
    exact hHeld d (hOthers hHandle (by simp [ChatRoomJoined.held]) d hMem hDHeld) hDHeld
  | emptied h j hHandle hStage hFree hEmpty =>
    obtain ⟨hLive, hAlone⟩ := hLeave h rfl j hHandle
    refine hSound.setState hState rfl (fun _ => hLive) (fun _ => hSome hHandle) ?_ ?_
    · intro _ _
      obtain ⟨ch, hMem, rfl⟩ := hSome hHandle
      exact ⟨hSound.published ch hMem events hState hLive, by simp [LocallyPresent.leave_live, hEmpty]⟩
    · intro d hMem hDHeld
      rcases hAlone with hNone | ⟨id, hId, hNe⟩
      · exact absurd hDHeld
          (hNone d (hOthers hHandle (by simp [ChatRoomJoined.held]) d hMem hDHeld))
      · obtain ⟨info, hInfo⟩ :=
          Option.isSome_iff_exists.mp (TreeMap.mem_iff_isSome_getElem?.mp (TreeMap.mem_keys.mp hId))
        exact absurd (LocallyPresent.leave_empty_iff.mp hEmpty id info hInfo) hNe
  | left h j hHandle hStage hFree hNotEmpty =>
    obtain ⟨hLive, _⟩ := hLeave h rfl j hHandle
    refine hSound.setState hState rfl (fun _ => hLive) (fun _ => hSome hHandle)
      (fun h hTaken => absurd (hFree.symm.trans hTaken) (by simp)) ?_
    intro _ _ _
    simp [LocallyPresent.leave_live, hNotEmpty]
  | closed h => exact absurd rfl (hClosed h)

/-- The close that a leave waited for. -/
theorem Sound.closed (hSound : s.Sound) (hLock : s.lock = none) {i : StateId} {h : HandleId}
    {events events' : ChannelEvents} {output : List ChannelEvents.Output}
    (hState : s.states[i]? = some events) (hEffect : events.Effect (.closed h) events' output) :
    s.Stored events.channelId i ∧
      Sound { s with
        states := s.states.set i events'
        channelMap := s.channelMap.erase events.channelId } := by
  cases hEffect with
  | closed _ j hHandle hStage hGuard =>
    obtain ⟨hStored, hClosed⟩ := hSound.closing i events h hState hGuard
    let left : ChannelEvents := { events.setStage h j .left with guard := none }
    have hLeft : Sound { s with states := s.states.set i left } := by
      refine hSound.setState hState rfl id ?_ (by simp [left]) ?_
      · intro _
        exact hSound.owned i events hState (List.ne_nil_of_mem (List.mem_of_getElem? hHandle))
      · intro d hMem hHeld
        rcases List.mem_or_eq_of_mem_set hMem with hOld | rfl
        · exact hSound.held i events hState d hOld hHeld
        · simp [ChatRoomJoined.held] at hHeld
    have hLookup : (s.states.set i left)[i]? = some left :=
      getElem?_set_here hState
    have hNoGuard : left.guard = none := rfl
    have hErased := hLeft.erase hLock hLookup hStored hClosed hNoGuard
    exact ⟨hStored, hErased⟩

theorem Sound.step (hSound : s.Sound) (hOk : s.Undisturbed e) (h : Effect s e s' o) : s'.Sound := by
  cases h with
  | found id room hLock hRoom => exact (hSound.addCall (.inr rfl)).publish hRoom
  | asked e id reassign => exact hSound.addCall (.inl rfl)
  | resumed e k call phase hCall hPhase =>
    refine hSound.setPhase hCall ?_ ?_ <;> rcases hPhase with ⟨_, rfl⟩ | ⟨_, rfl⟩ <;> simp
  | failed e k call result hCall => exact hSound.answered_none hCall
  | made k call voice hCall hPhase =>
    refine (hSound.make call.id).setPhase hCall ?_ (by simp)
    rintro room hRoom
    cases hRoom
    exact ⟨.new call.id, List.getElem?_concat_length, rfl⟩
  | inserted k call room hLock hCall hPhase hVacant =>
    obtain ⟨events, hState, hId⟩ := hSound.pending k call room hCall hPhase
    have hInserted := hSound.insert hLock call.id room (by simp [hVacant]) hState hId
    exact hInserted.answered_some hCall (by simp)
  | existing k call found hLock hCall hFound => exact hSound.answered_some hCall hFound
  | revoiced k call chan voice hLock hCall hPhase hFound =>
    obtain ⟨events, hState, hId⟩ := hSound.stored call.id chan hFound
    have hInserted := hSound.insert hLock call.id { chan with voice } (by simp [hFound]) hState hId
    exact hInserted.answered_some hCall (by simp)
  | locked k call voice hLock hCall hPhase hVacant =>
    refine (hSound.setPhase hCall (by simp) (fun _ _ _ => hVacant)).setLock (some k) ?_
    rintro n other _ ⟨rfl⟩ hOther _
    rcases (getElem?_set_iff hCall).mp hOther with ⟨_, rfl⟩ | ⟨hNe, _⟩
    · exact hVacant
    · exact absurd rfl hNe
  | created k call voice hLock hCall hPhase =>
    have hVacant := hSound.locked k call voice hLock hCall hPhase
    have hMade := (hSound.setLock none (by simp)).make call.id
    have hInserted := hMade.insert rfl call.id (s.make call.id voice).1 (by simp [hVacant])
      List.getElem?_concat_length rfl
    exact hInserted.answered_some hCall (by simp)
  | unlocked k call voice hLock hCall hPhase =>
    exact (hSound.setLock none (by simp)).answered_none hCall
  | joined n info channel events events' output hChannel hState hEffect =>
    refine hSound.stepped hState hEffect ?_ (by simp) (by simp)
    exact fun _ _ => ⟨channel, List.mem_of_getElem? hChannel, rfl⟩
  | stepped e i h events events' event output hEvent hState hEffect =>
    refine hSound.stepped hState hEffect ?_ ?_ ?_
    · rcases hEvent with ⟨_, rfl⟩ | ⟨_, rfl⟩ | ⟨_, rfl⟩ <;> simp
    · rcases hEvent with ⟨_, rfl⟩ | ⟨_, rfl⟩ | ⟨rfl, rfl⟩
      · simp
      · simp
      · rintro _ ⟨rfl⟩
        exact hOk events hState
    · rcases hEvent with ⟨_, rfl⟩ | ⟨_, rfl⟩ | ⟨_, rfl⟩ <;> simp
  | closed i h events events' output hLock hState hEffect => exact (hSound.closed hLock hState hEffect).2

theorem Sound.closesOwn (hSound : s.Sound) (h : Effect s e s' o) : ClosesOwn o := by
  intro i removed hMem
  cases h with
  | closed i' h events events' output hLock hState hEffect =>
    obtain ⟨⟨ch, hMap, hCh⟩, _⟩ := hSound.closed hLock hState hEffect
    simp only [List.mem_cons, List.mem_map, reduceCtorEq, and_false, exists_false, or_false,
      Output.closed.injEq] at hMem
    obtain ⟨rfl, hRemoved⟩ := hMem
    cases hRemoved.trans hMap
    exact hCh
  | _ => simp at hMem

theorem new_sound : (new : Channels V).Sound := by
  constructor <;> simp [new]

theorem closes_own (es : List (Event V)) (s : Channels V) (tr : List (Output V))
    (hRun : Machine.run step new es = some (s, tr))
    (hAlong : Machine.Along step Undisturbed new es) : ClosesOwn tr ∧ s.Sole := by
  have hBoth : s.Sound ∧ ClosesOwn tr := by
    refine Machine.run_induction_along (P := fun s tr => s.Sound ∧ ClosesOwn tr)
      ⟨new_sound, by simp [ClosesOwn]⟩ ?_ hAlong hRun
    rintro s₁ tr₁ e s₂ o ⟨hSound, hCloses⟩ hOk hStep
    have hEffect := step_effect hStep
    refine ⟨hSound.step hOk hEffect, fun i removed hMem => ?_⟩
    rcases List.mem_append.mp hMem with hOld | hNew
    · exact hCloses i removed hOld
    · exact hSound.closesOwn hEffect i removed hNew
  exact ⟨hBoth.2, hBoth.1.sole⟩

def started (id : Uuid) (call : CallId) : List (Event Nat) :=
  [.getOrInit id, .voiceHost call (some (some 1)), .init call true, .insert call]

/-- A channel empties and is closed, and the client comes back to another one. -/
def reopened : List (Event Nat) :=
  started 7 0 ++ [.join 0 ⟨1, 10, "a"⟩, .joined 0 0, .drop 0 0, .leave 0 0, .close 0 0] ++
    started 7 1 ++ [.join 1 ⟨1, 11, "a"⟩, .joined 1 0]

theorem closes_own_reopened : ∃ s tr,
    Machine.run step new reopened = some (s, tr) ∧ ClosesOwn tr ∧ s.Sole := by
  obtain ⟨⟨s, tr⟩, hRun⟩ : ∃ last, Machine.run step new reopened = some last :=
    Option.isSome_iff_exists.mp (by decide)
  exact ⟨s, tr, hRun, closes_own reopened s tr hRun (by decide)⟩

/-- A client has two handles on a channel, and the leave of the second runs when the first has
closed the channel and another one has been started. -/
def overtaken : List (Event Nat) :=
  started 7 0 ++ [.join 0 ⟨1, 10, "a"⟩, .joined 0 0, .drop 0 0, .join 0 ⟨1, 11, "a"⟩, .joined 0 1,
    .leave 0 0, .close 0 0] ++ started 7 1 ++
    [.join 1 ⟨2, 20, "b"⟩, .joined 1 0, .drop 0 1, .leave 0 1, .close 0 1]

theorem not_closes_own : ¬ ∀ (es : List (Event Nat)) (s : Channels Nat) (tr : List (Output Nat)),
    Machine.run step new es = some (s, tr) → ClosesOwn tr ∧ s.Sole := by
  intro hAll
  have hLast : (Machine.run step new overtaken).map (fun last =>
      decide (.closed 0 (some ⟨7, 1, 1⟩) ∈ last.2)) = some true := by
    decide
  obtain ⟨⟨s, tr⟩, hRun, hClosed⟩ := Option.map_eq_some_iff.mp hLast
  obtain ⟨hCloses, _⟩ := hAll overtaken s tr hRun
  cases hCloses 0 _ (of_decide_eq_true hClosed)

end Channels

end Voices.Gateway
