import Voices.Gateway.Exclusive
import Voices.Gateway.LocalChannel

/-!
# What a session knows of its channel

The snapshot of a session is later than its subscription, so that the events from
between the two are applied to members that have them already. The last event of
a source id says whether its client is present, whatever the snapshot was; a
source id without an event has not changed since.
-/

namespace Voices.Gateway

open Semantics VoiceServer Std

theorem changes_append (clientId : Uuid) (events later : List ChannelEvent) :
    changes clientId (events ++ later) = changes clientId events ++ changes clientId later := by
  simp [changes]

theorem changes_own (info : ClientInfo) :
    changes info.clientId [.joined info] = [] ∧ changes info.clientId [.left info] = [] := by
  simp [changes, handleChanEvent, ChannelEvent.joined, ChannelEvent.left]

theorem changes_other {clientId : Uuid} {info : ClientInfo} (hNe : clientId ≠ info.clientId) :
    changes clientId [.joined info] = [.add info.sourceId] ∧
      changes clientId [.left info] = [.remove info.sourceId] := by
  simp [changes, handleChanEvent, ChannelEvent.joined, ChannelEvent.left, hNe, ServerEvent.update]

/-- A view of the other handles than `h`: it has the source ids of handles that have not left, and
lacks, of the source ids that it can be relied on for, those of which no handle was announced. -/
structure Tracks (handles : List ChatRoomJoined) (h : HandleId) (known : UInt32 → Prop)
    (view : Finset UInt32) : Prop where
  member : ∀ x ∈ view, ∃ (g : HandleId) (d : ChatRoomJoined), g ≠ h ∧ handles[g]? = some d ∧
    d.stage ≠ .left ∧ d.info.sourceId = x
  absent : ∀ x, known x → x ∉ view → ∀ (g : HandleId) (d : ChatRoomJoined), g ≠ h →
    handles[g]? = some d → d.info.sourceId = x → d.stage = .joining ∨ d.stage = .left

namespace Tracks

variable {handles : List ChatRoomJoined} {h g : HandleId} {d : ChatRoomJoined}
  {known known' : UInt32 → Prop} {view : Finset UInt32} {stage : Stage}

theorem subscribed (handles : List ChatRoomJoined) (h : HandleId) :
    Tracks handles h (fun _ => False) ∅ where
  member x hMem := absurd hMem (Finset.notMem_empty x)
  absent _ hKnown := hKnown.elim

theorem enter (hTracks : Tracks handles h known view) (info : ClientInfo) :
    Tracks (handles ++ [⟨info, .joining⟩]) h known view where
  member x hMem := by
    obtain ⟨i, q, hNe, hLookup, hRest⟩ := hTracks.member x hMem
    exact ⟨i, q, hNe, getElem?_snoc_iff.mpr (.inl hLookup), hRest⟩
  absent x hKnown hAbsent i q hNe hLookup hSource := by
    rcases getElem?_snoc_iff.mp hLookup with hOld | ⟨_, rfl⟩
    · exact hTracks.absent x hKnown hAbsent i q hNe hOld hSource
    · exact .inl rfl

theorem own (hTracks : Tracks handles h known view) (hHandle : handles[h]? = some d)
    (d' : ChatRoomJoined) : Tracks (handles.set h d') h known view where
  member x hMem := by
    obtain ⟨i, q, hNe, hLookup, hRest⟩ := hTracks.member x hMem
    exact ⟨i, q, hNe, getElem?_set_there hHandle hNe hLookup, hRest⟩
  absent x hKnown hAbsent i q hNe hLookup hSource := by
    rcases (getElem?_set_iff hHandle).mp hLookup with ⟨hEq, _⟩ | ⟨_, hOld⟩
    · exact absurd hEq hNe
    · exact hTracks.absent x hKnown hAbsent i q hNe hOld hSource

theorem quiet (hTracks : Tracks handles h known view) (hHandle : handles[g]? = some d)
    (hAnnounced : d.stage ≠ .joining ∧ d.stage ≠ .left) (hStage : stage ≠ .left) :
    Tracks (handles.set g { d with stage }) h known view where
  member x hMem := by
    obtain ⟨i, q, hNe, hLookup, hLeft, hSource⟩ := hTracks.member x hMem
    by_cases hEq : i = g
    · subst hEq
      cases hHandle.symm.trans hLookup
      exact ⟨i, _, hNe, getElem?_set_here hHandle, hStage, hSource⟩
    · exact ⟨i, q, hNe, getElem?_set_there hHandle hEq hLookup, hLeft, hSource⟩
  absent x hKnown hAbsent i q hNe hLookup hSource := by
    rcases (getElem?_set_iff hHandle).mp hLookup with ⟨rfl, rfl⟩ | ⟨_, hOld⟩
    · rcases hTracks.absent x hKnown hAbsent i d hNe hHandle hSource with hJoining | hLeft
      · exact absurd hJoining hAnnounced.1
      · exact absurd hLeft hAnnounced.2
    · exact hTracks.absent x hKnown hAbsent i q hNe hOld hSource

theorem added (hTracks : Tracks handles h known view) (hNe : g ≠ h) (hHandle : handles[g]? = some d)
    (hKnown : ∀ x, known' x → x = d.info.sourceId ∨ known x) :
    Tracks (handles.set g { d with stage := .live }) h known' (insert d.info.sourceId view) where
  member x hMem := by
    rcases Finset.mem_insert.mp hMem with rfl | hOld
    · exact ⟨g, _, hNe, getElem?_set_here hHandle, by simp, rfl⟩
    · obtain ⟨i, q, hINe, hLookup, hLeft, hSource⟩ := hTracks.member x hOld
      by_cases hEq : i = g
      · subst hEq
        cases hHandle.symm.trans hLookup
        exact ⟨i, _, hINe, getElem?_set_here hHandle, by simp, hSource⟩
      · exact ⟨i, q, hINe, getElem?_set_there hHandle hEq hLookup, hLeft, hSource⟩
  absent x hX hAbsent i q hINe hLookup hSource := by
    rw [Finset.mem_insert, not_or] at hAbsent
    have hOldKnown := (hKnown x hX).resolve_left hAbsent.1
    rcases (getElem?_set_iff hHandle).mp hLookup with ⟨_, rfl⟩ | ⟨_, hOld⟩
    · exact absurd hSource.symm hAbsent.1
    · exact hTracks.absent x hOldKnown hAbsent.2 i q hINe hOld hSource

theorem removed (hTracks : Tracks handles h known view) (hHandle : handles[g]? = some d)
    (hUnique : ∀ (i : HandleId) (q : ChatRoomJoined), handles[i]? = some q → q.stage ≠ .left →
      q.info.sourceId = d.info.sourceId → i = g)
    (hKnown : ∀ x, known' x → x = d.info.sourceId ∨ known x) :
    Tracks (handles.set g { d with stage := .left }) h known' (view.erase d.info.sourceId) where
  member x hMem := by
    obtain ⟨hX, hOld⟩ := Finset.mem_erase.mp hMem
    obtain ⟨i, q, hINe, hLookup, hLeft, hSource⟩ := hTracks.member x hOld
    refine ⟨i, q, hINe, getElem?_set_there hHandle ?_ hLookup, hLeft, hSource⟩
    rintro rfl
    cases hHandle.symm.trans hLookup
    exact hX hSource.symm
  absent x hX hAbsent i q hINe hLookup hSource := by
    rcases (getElem?_set_iff hHandle).mp hLookup with ⟨_, rfl⟩ | ⟨hNe, hOld⟩
    · exact .inr rfl
    · by_cases hEq : x = d.info.sourceId
      · by_contra hStage
        exact hNe (hUnique i q hOld (fun hLeft => hStage (.inr hLeft)) (hSource.trans hEq))
      · have hNotMem : x ∉ view := fun hMem => hAbsent (Finset.mem_erase.mpr ⟨hEq, hMem⟩)
        exact hTracks.absent x ((hKnown x hX).resolve_left hEq) hNotMem i q hINe hOld hSource

theorem mono (hTracks : Tracks handles h known view) (hKnown : ∀ x, known' x → known x) :
    Tracks handles h known' view where
  member := hTracks.member
  absent x hX := hTracks.absent x (hKnown x hX)

/-- What the session is sent about a step keeps its view. -/
theorem step {s s' : ChannelEvents} {e : ChannelEvents.Event} {o : List ChannelEvents.Output}
    {j : ChatRoomJoined} (hTracks : Tracks s.handles h known view) (hExclusive : s.Exclusive)
    (hHandle : s.handles[h]? = some j) (hHeld : j.held) (hEffect : ChannelEvents.Effect s e s' o) :
    Tracks s'.handles h
      (fun x => known x ∨ Replay.Touched (changes j.info.clientId (LocalChannelEvents.sent o)) x)
      (Replay.replay view (changes j.info.clientId (LocalChannelEvents.sent o))) := by
  have hLeft : j.stage ≠ .left := by
    rcases hHeld with hStage | hStage <;> simp [hStage]
  have hSilent {handles : List ChatRoomJoined} (hNext : Tracks handles h known view) :
      Tracks handles h (fun x => known x ∨ Replay.Touched [] x) view :=
    hNext.mono fun x hX => hX.resolve_right (by simp [Replay.Touched])
  have hOther {g : HandleId} {d : ChatRoomJoined} (hLookup : s.handles[g]? = some d)
      (hD : d.stage ≠ .left) (hNe : g ≠ h) : j.info.clientId ≠ d.info.clientId := fun hEq =>
    hNe (hExclusive.client g h d j hLookup hHandle hD hLeft hEq.symm)
  have hTouched {u : Replay.Update UInt32} (x : UInt32)
      (hX : known x ∨ Replay.Touched [u] x) : x = u.member ∨ known x := by
    rcases hX with hKnown | ⟨v, hMem, hEq⟩
    · exact .inr hKnown
    · cases List.mem_singleton.mp hMem
      exact .inl hEq.symm
  have hRemoved {g : HandleId} {d : ChatRoomJoined} (hLookup : s.handles[g]? = some d)
      (hStage : d.stage = .dropped ∨ d.stage = .closing) :
      Tracks (s.handles.set g { d with stage := .left }) h
        (fun x => known x ∨ Replay.Touched (changes j.info.clientId [.left d.info]) x)
        (Replay.replay view (changes j.info.clientId [.left d.info])) := by
    have hD : d.stage ≠ .left := by
      rcases hStage with hStage | hStage <;> simp [hStage]
    have hNe : g ≠ h := by
      rintro rfl
      cases hHandle.symm.trans hLookup
      rcases hHeld with hHeld | hHeld <;> rcases hStage with hStage | hStage <;>
        cases hHeld.symm.trans hStage
    rw [(changes_other (hOther hLookup hD hNe)).2]
    exact hTracks.removed hLookup
      (fun i q hQ hQLeft hEq => hExclusive.source i g q d hQ hLookup hQLeft hD hEq) hTouched
  cases hEffect with
  | entered info hGuard hLive => exact hSilent (hTracks.enter info)
  | refused => exact hSilent hTracks
  | joined g d hLookup hStage =>
    simp only [LocalChannelEvents.sent, List.filterMap_cons, List.filterMap_nil]
    by_cases hEq : g = h
    · subst hEq
      cases hHandle.symm.trans hLookup
      rw [(changes_own j.info).1]
      exact hSilent (hTracks.own hHandle _)
    · rw [(changes_other (hOther hLookup (by simp [hStage]) hEq)).1]
      exact hTracks.added hEq hLookup hTouched
  | dropped g d hLookup hStage =>
    exact hSilent (hTracks.quiet hLookup ⟨by simp [hStage], by simp [hStage]⟩ (by simp))
  | emptied g d hLookup hStage hGuard hEmpty =>
    exact hSilent (hTracks.quiet hLookup ⟨by simp [hStage], by simp [hStage]⟩ (by simp))
  | left g d hLookup hStage hGuard hOthers => exact hRemoved hLookup (.inl hStage)
  | closed g d hLookup hStage hGuard => exact hRemoved hLookup (.inr hStage)

end Tracks

namespace LocalChannelEvents

variable {s s' : LocalChannelEvents} {e : Event} {o : List ChannelEvents.Output} {slots : Nat}

/-- The receiver has taken every event from the subscription up to where it is. -/
structure Exact (tx : List ChannelEvent) (u : Updates) : Prop where
  start_le : u.start ≤ u.next
  next_le : u.next ≤ tx.length
  received : u.received = (tx.take u.next).drop u.start

theorem Exact.send {tx : List ChannelEvent} {u : Updates} (hExact : Exact tx u)
    (events : List ChannelEvent) : Exact (tx ++ events) u where
  start_le := hExact.start_le
  next_le := by
    rw [List.length_append]
    exact hExact.next_le.trans (Nat.le_add_right _ _)
  received := by rw [List.take_append_of_le_length hExact.next_le, hExact.received]

theorem Exact.recv {tx : List ChannelEvent} {u : Updates} (hExact : Exact tx u) {next : Nat}
    {event : ChannelEvent} (hRecv : Broadcast.recv slots tx u.next = .item event next) :
    Exact tx { u with next, received := u.received ++ [event] } := by
  obtain ⟨hEvent, rfl⟩ := Broadcast.recv_item hRecv
  have hLt : u.next < tx.length := (List.getElem?_eq_some_iff.mp hEvent).1
  refine ⟨hExact.start_le.trans (Nat.le_succ _), hLt, ?_⟩
  have hTake : tx.take (u.next + 1) = tx.take u.next ++ [event] := by
    rw [List.take_add_one, hEvent]
    rfl
  have hStart : u.start ≤ (tx.take u.next).length := by
    rw [List.length_take, Nat.min_eq_left hExact.next_le]
    exact hExact.start_le
  show u.received ++ [event] = (tx.take (u.next + 1)).drop u.start
  rw [hTake, List.drop_append_of_le_length hStart, hExact.received]

/-- What a view starts from, as long as there is no snapshot nothing. -/
def base (info : ClientInfo) (u : Updates) : Finset UInt32 := (u.present.map (others info)).getD ∅

/-- The view when all events of the subscription have been received. -/
def expected (tx : List ChannelEvent) (info : ClientInfo) (u : Updates) : Finset UInt32 :=
  Replay.replay (base info u) (changes info.clientId (tx.drop u.start))

/-- Before the snapshot a view can be relied on only for what has changed. -/
def known (tx : List ChannelEvent) (info : ClientInfo) (u : Updates) (x : UInt32) : Prop :=
  u.present.isSome = true ∨ Replay.Touched (changes info.clientId (tx.drop u.start)) x

structure Right (s : LocalChannelEvents) : Prop where
  exclusive : s.state.Exclusive
  updates : ∀ (h : HandleId) (u : Updates), s.updates[h]? = some u →
    h < s.state.handles.length ∧ Exact s.tx u
  tracks : ∀ (h : HandleId) (u : Updates) (j : ChatRoomJoined), s.updates[h]? = some u →
    s.state.handles[h]? = some j → j.held →
      Tracks s.state.handles h (known s.tx j.info u) (expected s.tx j.info u)

theorem Right.new (channelId : Uuid) : (new channelId).Right where
  exclusive := .new channelId
  updates h u hUpdates := by simp [LocalChannelEvents.new] at hUpdates
  tracks h u j hUpdates := by simp [LocalChannelEvents.new] at hUpdates

theorem sent_changes (info : ClientInfo) {u : Updates} {tx : List ChannelEvent} (hExact : Exact tx u)
    (events : List ChannelEvent) :
    changes info.clientId ((tx ++ events).drop u.start) =
      changes info.clientId (tx.drop u.start) ++ changes info.clientId events := by
  rw [List.drop_append_of_le_length (hExact.start_le.trans hExact.next_le), changes_append]

theorem held_before {s s' : ChannelEvents} {e : ChannelEvents.Event} {o : List ChannelEvents.Output}
    (hEffect : ChannelEvents.Effect s e s' o) {h : HandleId} {j' : ChatRoomJoined}
    (hOld : h < s.handles.length) (hLookup : s'.handles[h]? = some j') (hHeld : j'.held) :
    ∃ j, s.handles[h]? = some j ∧ j.held ∧ j.info = j'.info := by
  have hSet {g : HandleId} {d : ChatRoomJoined} {stage : Stage} (hHandle : s.handles[g]? = some d)
      (hStage : stage = .live → d.held) (hJoining : stage ≠ .joining)
      (hNew : (s.handles.set g { d with stage })[h]? = some j') :
      ∃ j, s.handles[h]? = some j ∧ j.held ∧ j.info = j'.info := by
    rcases (getElem?_set_iff hHandle).mp hNew with ⟨rfl, rfl⟩ | ⟨_, hSame⟩
    · exact ⟨d, hHandle, hStage (hHeld.resolve_left hJoining), rfl⟩
    · exact ⟨j', hSame, hHeld, rfl⟩
  cases hEffect with
  | entered info hGuard hLive =>
    rcases getElem?_snoc_iff.mp hLookup with hSame | ⟨hEnd, _⟩
    · exact ⟨j', hSame, hHeld, rfl⟩
    · exact absurd hEnd (Nat.ne_of_lt hOld)
  | refused => exact ⟨j', hLookup, hHeld, rfl⟩
  | joined g d hHandle hStage => exact hSet hHandle (fun _ => .inl hStage) (by simp) hLookup
  | dropped g d hHandle hStage => exact hSet hHandle (by simp) (by simp) hLookup
  | emptied g d hHandle hStage hGuard hEmpty => exact hSet hHandle (by simp) (by simp) hLookup
  | left g d hHandle hStage hGuard hOthers => exact hSet hHandle (by simp) (by simp) hLookup
  | closed g d hHandle hStage hGuard => exact hSet hHandle (by simp) (by simp) hLookup

theorem handles_length_le {s s' : ChannelEvents} {e : ChannelEvents.Event}
    {o : List ChannelEvents.Output} (hEffect : ChannelEvents.Effect s e s' o) :
    s.handles.length ≤ s'.handles.length := by
  cases hEffect <;> simp [ChannelEvents.setStage]

theorem Right.advance (hRight : s.Right) {event : ChannelEvents.Event}
    (hRejoins : s.state.RejoinsLate event) (hApart : s.state.JoinsApart event)
    (h : s.advance event = some (s', o)) : s'.Right := by
  obtain ⟨⟨state, o⟩, hStep, hEq⟩ := Option.map_eq_some_iff.mp h
  cases hEq
  have hEffect := ChannelEvents.step_effect hStep
  refine ⟨hRight.exclusive.step hRejoins hApart hEffect, ?_, ?_⟩
  · intro g u hUpdates
    obtain ⟨hLt, hExact⟩ := hRight.updates g u hUpdates
    exact ⟨hLt.trans_le (handles_length_le hEffect), hExact.send _⟩
  · intro g u j' hUpdates hLookup hHeld
    obtain ⟨hLt, hExact⟩ := hRight.updates g u hUpdates
    obtain ⟨j, hHandle, hBefore, hInfo⟩ := held_before hEffect hLt hLookup hHeld
    have hTracks := (hRight.tracks g u j hUpdates hHandle hBefore).step hRight.exclusive hHandle
      hBefore hEffect
    rw [← hInfo]
    have hExpected : expected (s.tx ++ sent o) j.info u =
        Replay.replay (expected s.tx j.info u) (changes j.info.clientId (sent o)) := by
      rw [expected, sent_changes j.info hExact, Replay.replay_append, expected]
    rw [hExpected]
    refine hTracks.mono fun x hKnown => ?_
    rw [known, sent_changes j.info hExact, Replay.touched_append_iff, ← or_assoc] at hKnown
    exact hKnown

theorem Right.setUpdates (hRight : s.Right) {h : HandleId} {u : Updates}
    (hLt : h < s.state.handles.length) (hExact : Exact s.tx u)
    (hTracks : ∀ j, s.state.handles[h]? = some j → j.held →
      Tracks s.state.handles h (known s.tx j.info u) (expected s.tx j.info u)) :
    (s.setUpdates h u).Right := by
  have hLookup {g : HandleId} {v : Updates} (hUpdates : (s.setUpdates h u).updates[g]? = some v) :
      (g = h ∧ v = u) ∨ s.updates[g]? = some v :=
    (lookup_insert_iff.mp hUpdates).imp id And.right
  refine ⟨hRight.exclusive, ?_, ?_⟩
  · intro g v hUpdates
    rcases hLookup hUpdates with ⟨rfl, rfl⟩ | hOld
    · exact ⟨hLt, hExact⟩
    · exact hRight.updates g v hOld
  · intro g v j hUpdates hHandle hHeld
    rcases hLookup hUpdates with ⟨rfl, rfl⟩ | hOld
    · exact hTracks j hHandle hHeld
    · exact hRight.tracks g v j hOld hHandle hHeld

/-- The snapshot stands for all source ids that no event has been about. -/
theorem Right.listMembers (hRight : s.Right) (hGuard : s.state.guard = none) {h : HandleId}
    {u : Updates} {j : ChatRoomJoined} (hHandle : s.state.handles[h]? = some j) (hLive : j.stage = .live)
    (hUpdates : s.updates[h]? = some u) :
    Tracks s.state.handles h (known s.tx j.info { u with present := some s.state.listMembers })
      (expected s.tx j.info { u with present := some s.state.listMembers }) := by
  have hBefore := hRight.tracks h u j hUpdates hHandle (.inr hLive)
  have hMember {m : ClientInfo} : m ∈ s.state.listMembers ↔ _ := hRight.exclusive.mem_listMembers_iff
  have hOthers (x : UInt32) : x ∈ others j.info s.state.listMembers ↔
      ∃ m ∈ s.state.listMembers, m.sourceId = x ∧ x ≠ j.info.sourceId := by
    simp only [others, List.mem_toFinset, List.mem_filter, List.mem_map, decide_eq_true_eq]
    constructor
    · rintro ⟨⟨m, hMem, hEq⟩, hNe⟩
      exact ⟨m, hMem, hEq, hNe⟩
    · rintro ⟨m, hMem, hEq, hNe⟩
      exact ⟨⟨m, hMem, hEq⟩, hNe⟩
  refine ⟨?_, ?_⟩
  · intro x hX
    by_cases hTouched : Replay.Touched (changes j.info.clientId (s.tx.drop u.start)) x
    · exact hBefore.member x ((Replay.mem_replay_of_touched hTouched _).mp hX)
    · obtain ⟨m, hMem, hSource, hNe⟩ :=
        (hOthers x).mp ((Replay.mem_replay_of_untouched hTouched).mp hX)
      obtain ⟨g, d, hLookup, hListed, rfl⟩ := hMember.mp hMem
      refine ⟨g, d, ?_, hLookup, hListed.2, hSource⟩
      rintro rfl
      cases hHandle.symm.trans hLookup
      exact hNe hSource.symm
  · intro x _ hAbsent g d hNe hLookup hSource
    by_cases hTouched : Replay.Touched (changes j.info.clientId (s.tx.drop u.start)) x
    · refine hBefore.absent x (.inr hTouched) (fun hX => hAbsent ?_) g d hNe hLookup hSource
      exact (Replay.mem_replay_of_touched hTouched _).mp hX
    · by_contra hStage
      have hLeft : d.stage ≠ .left := fun hEq => hStage (.inr hEq)
      have hListed : d.listed := by
        refine ⟨fun hClosing => ?_, hLeft⟩
        cases hGuard.symm.trans (hRight.exclusive.closing g d hLookup hClosing)
      apply hAbsent
      refine (Replay.mem_replay_of_untouched hTouched).mpr ((hOthers x).mpr ?_)
      refine ⟨d.info, hMember.mpr ⟨g, d, hLookup, hListed, rfl⟩, hSource, ?_⟩
      intro hOwn
      exact hNe (hRight.exclusive.source g h d j hLookup hHandle hLeft (by simp [hLive])
        (hSource.trans hOwn))

def RejoinsLate (s : LocalChannelEvents) : Event → Prop
  | .state event => s.state.RejoinsLate event
  | _ => True

def JoinsApart (s : LocalChannelEvents) : Event → Prop
  | .state event => s.state.JoinsApart event
  | _ => True

/-- No receiver lags behind the buffer. -/
def KeepsUp (slots : Nat) (s : LocalChannelEvents) : Event → Prop
  | .recv h => ∀ u ∈ s.updates[h]?, s.tx.length ≤ u.next + slots
  | _ => True

theorem Right.recv (hRight : s.Right) {h : HandleId} (hKeepsUp : s.KeepsUp slots (.recv h))
    (hStep : s.step slots (.recv h) = some (s', o)) : s'.Right := by
  simp only [LocalChannelEvents.step] at hStep
  split at hStep
  · rename_i j u hHandle hUpdates
    obtain ⟨hLt, hExact⟩ := hRight.updates h u hUpdates
    split at hStep
    · cases hStep
    · split at hStep
      · cases hStep
      · rename_i next hRecv
        exact absurd hRecv (Broadcast.recv_of_le (hKeepsUp u hUpdates) next)
      · rename_i event next hRecv
        cases hStep
        exact hRight.setUpdates hLt (hExact.recv hRecv) fun j => hRight.tracks h u j hUpdates
  · cases hStep

theorem Right.step (hRight : s.Right) (hRejoins : s.RejoinsLate e) (hApart : s.JoinsApart e)
    (hKeepsUp : s.KeepsUp slots e) (hStep : s.step slots e = some (s', o)) : s'.Right := by
  cases e with
  | state event =>
    have hAdvance : s.advance event = some (s', o) := by
      cases event with
      | joined h =>
        simp only [LocalChannelEvents.step, Option.ite_none_right_eq_some] at hStep
        exact hStep.2
      | _ => exact hStep
    exact hRight.advance hRejoins hApart hAdvance
  | subscribe h =>
    simp only [LocalChannelEvents.step] at hStep
    split at hStep
    · rename_i j hHandle hNone
      cases hStep
      obtain ⟨hHandle, _⟩ := ChannelEvents.handle_eq_some_iff.mp hHandle
      refine hRight.setUpdates (List.getElem?_eq_some_iff.mp hHandle).1 ⟨Nat.le_refl _, Nat.le_refl _, ?_⟩ ?_
      · simp
      · intro j _ _
        have hNothing := Tracks.subscribed s.state.handles h
        simp only [expected, base, Option.map_none, Option.getD_none, List.drop_length, changes,
          List.filterMap_nil, List.map_nil, Replay.replay_nil]
        refine hNothing.mono fun x hKnown => ?_
        simp [known, changes, Replay.Touched] at hKnown
    · cases hStep
  | listMembers h =>
    simp only [LocalChannelEvents.step] at hStep
    split at hStep
    · rename_i j u hHandle hUpdates
      split at hStep <;> cases hStep
      rename_i hReady
      obtain ⟨hHandle, hLive⟩ := ChannelEvents.handle_eq_some_iff.mp hHandle
      obtain ⟨hLt, hExact⟩ := hRight.updates h u hUpdates
      refine hRight.setUpdates hLt ⟨hExact.start_le, hExact.next_le, hExact.received⟩ fun q hQ _ => ?_
      cases hHandle.symm.trans hQ
      exact hRight.listMembers hReady.2 hHandle hLive hUpdates
    · cases hStep
  | recv h => exact hRight.recv hKeepsUp hStep

/-- No join has entered its client without having sent its event, and no leave has taken its client
out without having sent its own. -/
def Settled (s : LocalChannelEvents) : Prop :=
  ∀ j ∈ s.state.handles, j.stage ≠ .joining ∧ j.stage ≠ .closing

/-- A session with a snapshot and no pending event knows the source ids of the other members. -/
def ViewsRight (s : LocalChannelEvents) : Prop :=
  s.Settled → ∀ (h : HandleId) (j : ChatRoomJoined) (u : Updates) (present : List ClientInfo),
    s.state.handles[h]? = some j → j.stage = .live → s.updates[h]? = some u →
    u.present = some present → u.next = s.tx.length → ∀ x,
      x ∈ view j.info present u.received ↔
        ∃ m ∈ s.state.listMembers, m.clientId ≠ j.info.clientId ∧ m.sourceId = x

theorem Right.viewsRight (hRight : s.Right) : s.ViewsRight := by
  intro hSettled h j u present hHandle hLive hUpdates hPresent hNext x
  obtain ⟨_, hExact⟩ := hRight.updates h u hUpdates
  have hTracks := hRight.tracks h u j hUpdates hHandle (.inr hLive)
  have hView : view j.info present u.received = expected s.tx j.info u := by
    rw [hExact.received, hNext, List.take_length, view, expected, base, hPresent, Option.map_some,
      Option.getD_some]
  have hMember {m : ClientInfo} : m ∈ s.state.listMembers ↔ _ := hRight.exclusive.mem_listMembers_iff
  have hLeft : j.stage ≠ .left := by simp [hLive]
  rw [hView]
  constructor
  · intro hX
    obtain ⟨g, d, hNe, hLookup, hStage, hSource⟩ := hTracks.member x hX
    have hListed : d.listed := ⟨(hSettled d (List.mem_of_getElem? hLookup)).2, hStage⟩
    refine ⟨d.info, hMember.mpr ⟨g, d, hLookup, hListed, rfl⟩, fun hEq => ?_, hSource⟩
    exact hNe (hRight.exclusive.client g h d j hLookup hHandle hStage hLeft hEq)
  · rintro ⟨m, hMem, hNe, hSource⟩
    obtain ⟨g, d, hLookup, hListed, rfl⟩ := hMember.mp hMem
    by_contra hAbsent
    have hOther : g ≠ h := by
      rintro rfl
      cases hHandle.symm.trans hLookup
      exact hNe rfl
    rcases hTracks.absent x (.inl (by simp [hPresent])) hAbsent g d hOther hLookup hSource with
      hJoining | hGone
    · exact (hSettled d (List.mem_of_getElem? hLookup)).1 hJoining
    · exact hListed.2 hGone

instance (s : ChannelEvents) : (e : ChannelEvents.Event) → Decidable (s.RejoinsLate e)
  | .join info => inferInstanceAs (Decidable (∀ j ∈ s.handles,
      j.info.clientId = info.clientId → j.stage = .left))
  | .joined _ | .drop _ | .leave _ | .closed _ => .isTrue trivial

instance (s : ChannelEvents) : (e : ChannelEvents.Event) → Decidable (s.JoinsApart e)
  | .join info => inferInstanceAs (Decidable (∀ m ∈ s.listMembers, m.sourceId ≠ info.sourceId))
  | .joined _ | .drop _ | .leave _ | .closed _ => .isTrue trivial

instance (s : LocalChannelEvents) : (e : Event) → Decidable (s.RejoinsLate e)
  | .state event => inferInstanceAs (Decidable (s.state.RejoinsLate event))
  | .subscribe _ | .listMembers _ | .recv _ => .isTrue trivial

instance (s : LocalChannelEvents) : (e : Event) → Decidable (s.JoinsApart e)
  | .state event => inferInstanceAs (Decidable (s.state.JoinsApart event))
  | .subscribe _ | .listMembers _ | .recv _ => .isTrue trivial

instance (slots : Nat) (s : LocalChannelEvents) : (e : Event) → Decidable (s.KeepsUp slots e)
  | .recv h => inferInstanceAs (Decidable (∀ u ∈ s.updates[h]?, s.tx.length ≤ u.next + slots))
  | .state _ | .subscribe _ | .listMembers _ => .isTrue trivial

/-- In every run in which clients join again late and with source ids that no member has, and no
receiver lags, the sessions know their channel whenever nothing is under way. -/
theorem views_right_along (slots : Nat) (channelId : Uuid) (es : List Event) (s : LocalChannelEvents)
    (tr : List ChannelEvents.Output)
    (hRun : Machine.run (step slots) (new channelId) es = some (s, tr))
    (hRejoins : Machine.Along (step slots) RejoinsLate (new channelId) es)
    (hApart : Machine.Along (step slots) JoinsApart (new channelId) es)
    (hKeepsUp : Machine.Along (step slots) (KeepsUp slots) (new channelId) es) : s.ViewsRight := by
  have hRight : s.Right :=
    Machine.run_induction_along (P := fun s _ => s.Right) (Right.new channelId)
      (fun _ _ _ _ _ hRight hOk h => hRight.step hOk.1 hOk.2.1 hOk.2.2 h)
      (hRejoins.and (hApart.and hKeepsUp)) hRun
  exact hRight.viewsRight

/-- Client 3 is subscribed before client 2 has sent its event, which it then receives on top of a
snapshot with client 2, and client 1 leaves after the snapshot. -/
def overlapped : List Event :=
  [.state (.join ⟨1, 10, "a"⟩), .subscribe 0, .state (.joined 0), .listMembers 0,
    .state (.join ⟨2, 20, "b"⟩), .state (.join ⟨3, 30, "c"⟩), .subscribe 2, .subscribe 1,
    .state (.joined 1), .state (.joined 2), .listMembers 2, .state (.drop 0), .state (.leave 0),
    .recv 2, .recv 2, .recv 2]

theorem views_right_along_overlapped : ∃ s tr,
    Machine.run (step 128) (new 7) overlapped = some (s, tr) ∧
      (s.updates[(2 : HandleId)]?.map fun u => u.present.map fun present =>
        view ⟨3, 30, "c"⟩ present u.received) = some (some {20}) ∧ s.ViewsRight := by
  have hFacts : (Machine.run (step 128) (new 7) overlapped).map (fun last => decide (
      (last.1.updates[(2 : HandleId)]?.map fun u => u.present.map fun present =>
        view ⟨3, 30, "c"⟩ present u.received) = some (some {20}))) = some true := by decide
  obtain ⟨⟨s, tr⟩, hRun, hLast⟩ := Option.map_eq_some_iff.mp hFacts
  exact ⟨s, tr, hRun, of_decide_eq_true hLast,
    views_right_along 128 7 overlapped s tr hRun (by decide) (by decide) (by decide)⟩

/-- Clients 1 and 2 have the same source id, and client 1 leaves. -/
def sameSource : List Event :=
  [.state (.join ⟨1, 10, "a"⟩), .subscribe 0, .state (.joined 0),
    .state (.join ⟨2, 10, "b"⟩), .subscribe 1, .state (.joined 1),
    .state (.join ⟨3, 30, "c"⟩), .subscribe 2, .state (.joined 2), .listMembers 2,
    .state (.drop 0), .state (.leave 0), .recv 2, .recv 2]

theorem not_views_right : ¬ ∀ (slots : Nat) (channelId : Uuid) (es : List Event)
    (s : LocalChannelEvents) (tr : List ChannelEvents.Output),
    Machine.run (step slots) (new channelId) es = some (s, tr) →
    Machine.Along (step slots) RejoinsLate (new channelId) es →
    Machine.Along (step slots) (KeepsUp slots) (new channelId) es → s.ViewsRight := by
  intro hAll
  have hFacts : (Machine.run (step 128) (new 7) sameSource).map (fun last => decide (
      (∀ j ∈ last.1.state.handles, j.stage ≠ .joining ∧ j.stage ≠ .closing) ∧
      last.1.state.handles[2]? = some ⟨⟨3, 30, "c"⟩, .live⟩ ∧
      ⟨2, 10, "b"⟩ ∈ last.1.state.listMembers ∧
      (last.1.updates[(2 : HandleId)]?.map fun u => (decide (u.next = last.1.tx.length),
        u.present.map fun present => decide (10 ∈ view ⟨3, 30, "c"⟩ present u.received))) =
        some (true, some false))) = some true := by decide
  obtain ⟨⟨s, tr⟩, hRun, hLast⟩ := Option.map_eq_some_iff.mp hFacts
  obtain ⟨hSettled, hHandle, hMember, hState⟩ := of_decide_eq_true hLast
  obtain ⟨u, hUpdates, hFields⟩ := Option.map_eq_some_iff.mp hState
  obtain ⟨hNext, hView⟩ := Prod.mk.inj hFields
  obtain ⟨present, hPresent, hAbsent⟩ := Option.map_eq_some_iff.mp hView
  have hRight := hAll 128 7 sameSource s tr hRun (by decide) (by decide) hSettled 2 _ u present
    hHandle rfl hUpdates hPresent (of_decide_eq_true hNext) 10
  exact of_decide_eq_false hAbsent (hRight.mpr ⟨_, hMember, by decide, rfl⟩)

end LocalChannelEvents

end Voices.Gateway
