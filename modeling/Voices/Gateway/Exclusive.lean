import Voices.Gateway.ChannelState

/-!
# One handle for each member

When a client joins again only after the leave of its earlier handle has run, the
presence has the clients of the handles that have not left, each on account of
one handle. When it also joins with a source id that no member has, the source
ids of the members tell them apart.
-/

namespace Voices.Gateway

open Semantics VoiceServer Std

/-- The client of the handle is in the presence. -/
def ChatRoomJoined.listed (j : ChatRoomJoined) : Prop := j.stage ≠ .closing ∧ j.stage ≠ .left

/-- No two handles that have not left agree in `f`. -/
def Apart {β : Type} (handles : List ChatRoomJoined) (f : ClientInfo → β) : Prop :=
  ∀ (g h : HandleId) (d j : ChatRoomJoined), handles[g]? = some d → handles[h]? = some j →
    d.stage ≠ .left → j.stage ≠ .left → f d.info = f j.info → g = h

namespace Apart

variable {β : Type} {handles : List ChatRoomJoined} {f : ClientInfo → β}

theorem enter (hApart : Apart handles f) {info : ClientInfo}
    (hNew : ∀ (h : HandleId) (j : ChatRoomJoined), handles[h]? = some j → j.stage ≠ .left →
      f j.info ≠ f info) : Apart (handles ++ [⟨info, .joining⟩]) f := by
  intro g h d j hOther hHandle hStage hStage' hEq
  rcases getElem?_snoc_iff.mp hOther with hOther | ⟨rfl, rfl⟩ <;>
    rcases getElem?_snoc_iff.mp hHandle with hHandle | ⟨rfl, rfl⟩
  · exact hApart g h d j hOther hHandle hStage hStage' hEq
  · exact absurd hEq (hNew g d hOther hStage)
  · exact absurd hEq.symm (hNew h j hHandle hStage')
  · rfl

theorem restage (hApart : Apart handles f) {h : HandleId} {j : ChatRoomJoined} {stage : Stage}
    (hHandle : handles[h]? = some j) (hStage : j.stage ≠ .left) :
    Apart (handles.set h { j with stage }) f := by
  have hOld {g : HandleId} {d : ChatRoomJoined}
      (hLookup : (handles.set h { j with stage })[g]? = some d) (hLeft : d.stage ≠ .left) :
      ∃ d', handles[g]? = some d' ∧ d'.stage ≠ .left ∧ d'.info = d.info := by
    rcases (getElem?_set_iff hHandle).mp hLookup with ⟨rfl, rfl⟩ | ⟨_, hSame⟩
    · exact ⟨j, hHandle, hStage, rfl⟩
    · exact ⟨d, hSame, hLeft, rfl⟩
  intro g i d q hOther hLookup hD hQ hEq
  obtain ⟨d', hD', hDLeft, hDInfo⟩ := hOld hOther hD
  obtain ⟨q', hQ', hQLeft, hQInfo⟩ := hOld hLookup hQ
  exact hApart g i d' q' hD' hQ' hDLeft hQLeft (by rw [hDInfo, hQInfo, hEq])

end Apart

namespace ChannelEvents

variable {s s' : ChannelEvents} {e : Event} {o : List Output}

/-- A client joins again only after the leave of its earlier handle has run. -/
def RejoinsLate (s : ChannelEvents) : Event → Prop
  | .join info => ∀ j ∈ s.handles, j.info.clientId = info.clientId → j.stage = .left
  | _ => True

/-- A client joins with a source id that no member has. -/
def JoinsApart (s : ChannelEvents) : Event → Prop
  | .join info => ∀ m ∈ s.listMembers, m.sourceId ≠ info.sourceId
  | _ => True

/-- One handle for each member, with a source id of its own. -/
structure Exclusive (s : ChannelEvents) : Prop where
  closing : ∀ (h : HandleId) (j : ChatRoomJoined), s.handles[h]? = some j → j.stage = .closing →
    s.guard = some h
  client : Apart s.handles ClientInfo.clientId
  source : Apart s.handles ClientInfo.sourceId
  listed : ∀ (id : Uuid) (info : ClientInfo), s.locallyPresent.inner[id]? = some info ↔
    ∃ (h : HandleId) (j : ChatRoomJoined),
      s.handles[h]? = some j ∧ j.listed ∧ j.info = info ∧ info.clientId = id

theorem Exclusive.new (channelId : Uuid) : (new channelId).Exclusive where
  closing h j hHandle := by simp [ChannelEvents.new] at hHandle
  client g h d j hOther := by simp [ChannelEvents.new] at hOther
  source g h d j hOther := by simp [ChannelEvents.new] at hOther
  listed id info := by simp [ChannelEvents.new, LocallyPresent.new]

theorem Exclusive.mem_listMembers_iff (hExclusive : s.Exclusive) {info : ClientInfo} :
    info ∈ s.listMembers ↔ ∃ (h : HandleId) (j : ChatRoomJoined),
      s.handles[h]? = some j ∧ j.listed ∧ j.info = info := by
  rw [listMembers, LocallyPresent.mem_list_iff, hExclusive.listed]
  simp

theorem Exclusive.enter (hExclusive : s.Exclusive) {info : ClientInfo} (hGuard : s.guard = none)
    (hRejoins : s.RejoinsLate (.join info)) (hApart : s.JoinsApart (.join info))
    (hInner : (s.locallyPresent.join info).1.inner = s.locallyPresent.inner.insert info.clientId info) :
    Exclusive { s with
      locallyPresent := (s.locallyPresent.join info).1
      handles := s.handles ++ [⟨info, .joining⟩] } := by
  have hListed {h : HandleId} {j : ChatRoomJoined} (hHandle : s.handles[h]? = some j)
      (hStage : j.stage ≠ .left) : j.listed ∧ j.info.clientId ≠ info.clientId ∧
        j.info.sourceId ≠ info.sourceId := by
    have hOpen : j.listed := by
      refine ⟨fun hClosing => ?_, hStage⟩
      cases hGuard.symm.trans (hExclusive.closing h j hHandle hClosing)
    refine ⟨hOpen, fun hEq => hStage (hRejoins j (List.mem_of_getElem? hHandle) hEq), ?_⟩
    exact hApart j.info (hExclusive.mem_listMembers_iff.mpr ⟨h, j, hHandle, hOpen, rfl⟩)
  refine ⟨?_, hExclusive.client.enter fun h j hHandle hStage => (hListed hHandle hStage).2.1,
    hExclusive.source.enter fun h j hHandle hStage => (hListed hHandle hStage).2.2, ?_⟩
  · intro h j hHandle hClosing
    rcases getElem?_snoc_iff.mp hHandle with hOld | ⟨_, rfl⟩
    · exact hExclusive.closing h j hOld hClosing
    · cases hClosing
  · intro id m
    simp only [hInner, lookup_insert_iff]
    constructor
    · rintro (⟨rfl, rfl⟩ | ⟨_, hEntry⟩)
      · exact ⟨s.handles.length, _, List.getElem?_concat_length, ⟨by simp, by simp⟩, rfl, rfl⟩
      · obtain ⟨h, j, hHandle, hRest⟩ := (hExclusive.listed id m).mp hEntry
        exact ⟨h, j, getElem?_snoc_iff.mpr (.inl hHandle), hRest⟩
    · rintro ⟨h, j, hHandle, hStage, rfl, rfl⟩
      rcases getElem?_snoc_iff.mp hHandle with hOld | ⟨_, rfl⟩
      · refine .inr ⟨(hListed hOld hStage.2).2.1, ?_⟩
        exact (hExclusive.listed _ _).mpr ⟨h, j, hOld, hStage, rfl, rfl⟩
      · exact .inl ⟨rfl, rfl⟩

theorem Exclusive.restage (hExclusive : s.Exclusive) {h : HandleId} {j : ChatRoomJoined} {stage : Stage}
    (hHandle : s.handles[h]? = some j) (hStage : j.stage ≠ .left)
    (hHandles : s'.handles = s.handles.set h { j with stage })
    (hClosing : ∀ (g : HandleId) (d : ChatRoomJoined), s'.handles[g]? = some d →
      d.stage = .closing → s'.guard = some g)
    (hListed : ∀ (id : Uuid) (info : ClientInfo), s'.locallyPresent.inner[id]? = some info ↔
      ∃ (g : HandleId) (d : ChatRoomJoined),
        s'.handles[g]? = some d ∧ d.listed ∧ d.info = info ∧ info.clientId = id) : s'.Exclusive := by
  exact ⟨hClosing, hHandles ▸ hExclusive.client.restage hHandle hStage,
    hHandles ▸ hExclusive.source.restage hHandle hStage, hListed⟩

theorem Exclusive.listed_set (hExclusive : s.Exclusive) {h : HandleId} {j : ChatRoomJoined}
    {stage : Stage} (hHandle : s.handles[h]? = some j)
    (hSame : ChatRoomJoined.listed { j with stage } ↔ j.listed) (id : Uuid) (info : ClientInfo) :
    s.locallyPresent.inner[id]? = some info ↔ ∃ (g : HandleId) (d : ChatRoomJoined),
      (s.handles.set h { j with stage })[g]? = some d ∧ d.listed ∧ d.info = info ∧
        info.clientId = id := by
  rw [hExclusive.listed]
  constructor
  · rintro ⟨g, d, hLookup, hListed, hRest⟩
    by_cases hEq : g = h
    · subst hEq
      cases hHandle.symm.trans hLookup
      exact ⟨g, _, getElem?_set_here hHandle, hSame.mpr hListed, hRest⟩
    · exact ⟨g, d, getElem?_set_there hHandle hEq hLookup, hListed, hRest⟩
  · rintro ⟨g, d, hLookup, hListed, hRest⟩
    rcases (getElem?_set_iff hHandle).mp hLookup with ⟨rfl, rfl⟩ | ⟨_, hOld⟩
    · exact ⟨g, j, hHandle, hSame.mp hListed, hRest⟩
    · exact ⟨g, d, hOld, hListed, hRest⟩

/-- A leave takes the entry of its own handle away. -/
theorem Exclusive.listed_leave (hExclusive : s.Exclusive) {h : HandleId} {j : ChatRoomJoined}
    {stage : Stage} (hHandle : s.handles[h]? = some j) (hStage : j.stage ≠ .left)
    (hGone : ¬ ChatRoomJoined.listed { j with stage }) (id : Uuid) (info : ClientInfo) :
    (s.locallyPresent.leave j.info.clientId).1.inner[id]? = some info ↔
      ∃ (g : HandleId) (d : ChatRoomJoined), (s.handles.set h { j with stage })[g]? = some d ∧
        d.listed ∧ d.info = info ∧ info.clientId = id := by
  rw [LocallyPresent.leave_inner, lookup_erase_iff]
  constructor
  · rintro ⟨hNe, hEntry⟩
    obtain ⟨g, d, hLookup, hListed, rfl, rfl⟩ := (hExclusive.listed id info).mp hEntry
    refine ⟨g, d, getElem?_set_there hHandle ?_ hLookup, hListed, rfl, rfl⟩
    rintro rfl
    cases hHandle.symm.trans hLookup
    exact hNe rfl
  · rintro ⟨g, d, hLookup, hListed, rfl, rfl⟩
    rcases (getElem?_set_iff hHandle).mp hLookup with ⟨_, rfl⟩ | ⟨hNe, hOld⟩
    · exact absurd hListed hGone
    · refine ⟨fun hEq => ?_, (hExclusive.listed _ _).mpr ⟨g, d, hOld, hListed, rfl, rfl⟩⟩
      exact hNe (hExclusive.client g h d j hOld hHandle hListed.2 hStage hEq)

theorem Exclusive.step (hExclusive : s.Exclusive) (hRejoins : s.RejoinsLate e)
    (hApart : s.JoinsApart e) (h : Effect s e s' o) : s'.Exclusive := by
  -- no other handle is closing
  have hClosing {h : HandleId} {j : ChatRoomJoined} {stage : Stage} (hHandle : s.handles[h]? = some j)
      (hStage : stage ≠ .closing) (g : HandleId) (d : ChatRoomJoined)
      (hLookup : (s.handles.set h { j with stage })[g]? = some d) (hD : d.stage = .closing) :
      g ≠ h ∧ s.guard = some g := by
    rcases (getElem?_set_iff hHandle).mp hLookup with ⟨_, rfl⟩ | ⟨hNe, hOld⟩
    · exact absurd hD hStage
    · exact ⟨hNe, hExclusive.closing g d hOld hD⟩
  cases h with
  | entered info hGuard hLive =>
    exact hExclusive.enter hGuard hRejoins hApart (LocallyPresent.join_of_live hLive info).2.2
  | refused => exact hExclusive
  | joined h j hHandle hStage =>
    refine hExclusive.restage hHandle (by simp [hStage]) rfl
      (fun g d hLookup hD => (hClosing hHandle (by simp) g d hLookup hD).2) ?_
    exact hExclusive.listed_set hHandle (by simp [ChatRoomJoined.listed, hStage])
  | dropped h j hHandle hStage =>
    refine hExclusive.restage hHandle (by simp [hStage]) rfl
      (fun g d hLookup hD => (hClosing hHandle (by simp) g d hLookup hD).2) ?_
    exact hExclusive.listed_set hHandle (by simp [ChatRoomJoined.listed, hStage])
  | emptied h j hHandle hStage hGuard hEmpty =>
    have hLeft : j.stage ≠ .left := by simp [hStage]
    refine hExclusive.restage hHandle hLeft rfl ?_
      (hExclusive.listed_leave hHandle hLeft (by simp [ChatRoomJoined.listed]))
    intro g d hLookup hD
    rcases (getElem?_set_iff hHandle).mp hLookup with ⟨rfl, _⟩ | ⟨_, hOld⟩
    · rfl
    · cases hGuard.symm.trans (hExclusive.closing g d hOld hD)
  | left h j hHandle hStage hGuard hOthers =>
    have hLeft : j.stage ≠ .left := by simp [hStage]
    exact hExclusive.restage hHandle hLeft rfl
      (fun g d hLookup hD => (hClosing hHandle (by simp) g d hLookup hD).2)
      (hExclusive.listed_leave hHandle hLeft (by simp [ChatRoomJoined.listed]))
  | closed h j hHandle hStage hGuard =>
    refine hExclusive.restage hHandle (by simp [hStage]) rfl ?_
      (hExclusive.listed_set hHandle (by simp [ChatRoomJoined.listed, hStage]))
    intro g d hLookup hD
    obtain ⟨hNe, hOther⟩ := hClosing hHandle (by simp) g d hLookup hD
    exact absurd (Option.some.inj (hOther.symm.trans hGuard)) hNe

end ChannelEvents

end Voices.Gateway
