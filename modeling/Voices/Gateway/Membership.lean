import Voices.Gateway.ChannelState

/-!
# Membership and handles

A client should be listed as long as it has a live handle. The presence has
one entry for each client, whatever the number of its handles, so that a late
leave of an earlier handle takes the entry of a later one away.
-/

namespace Voices.Gateway

open Semantics VoiceServer Std

namespace ChannelEvents

/-- The client of every live handle is listed with the source id of that handle. -/
def Present (s : ChannelEvents) : Prop :=
  ∀ (h : HandleId) (j : ChatRoomJoined), s.handles[h]? = some j → j.stage = .live →
    (∃ info ∈ s.listMembers, info.clientId = j.info.clientId ∧ info.sourceId = j.info.sourceId) ∧
      s.locallyPresent.live = true

/-- A join meets no handle of its client with another source id, and a leave runs while its
client has no other handle, live or being made. -/
def Undisturbed (s : ChannelEvents) : Event → Prop
  | .join info => ∀ j ∈ s.handles, j.held → j.info.clientId = info.clientId →
      j.info.sourceId = info.sourceId
  | .leave h => ∀ j ∈ s.handles[h]?, ∀ j' ∈ s.handles, j'.held →
      j'.info.clientId ≠ j.info.clientId
  | _ => True

instance (s : ChannelEvents) : (e : Event) → Decidable (s.Undisturbed e)
  | .join info => inferInstanceAs (Decidable (∀ j ∈ s.handles, j.held →
      j.info.clientId = info.clientId → j.info.sourceId = info.sourceId))
  | .leave h => inferInstanceAs (Decidable (∀ j ∈ s.handles[h]?, ∀ j' ∈ s.handles, j'.held →
      j'.info.clientId ≠ j.info.clientId))
  | .joined _ => .isTrue trivial
  | .drop _ => .isTrue trivial
  | .closed _ => .isTrue trivial

def Entered (s : ChannelEvents) (j : ChatRoomJoined) : Prop :=
  ∃ info, s.locallyPresent.inner[j.info.clientId]? = some info ∧ info.sourceId = j.info.sourceId

def AllEntered (s : ChannelEvents) : Prop :=
  ∀ (h : HandleId) (j : ChatRoomJoined), s.handles[h]? = some j → j.held → s.Entered j

variable {s s' : ChannelEvents} {e : Event} {o : List Output}

theorem AllEntered.present (hAll : s.AllEntered) : s.Present := by
  intro h j hHandle hLive
  obtain ⟨info, hInfo, hSource⟩ := hAll h j hHandle (.inr hLive)
  obtain ⟨hMem, hClient⟩ := LocallyPresent.mem_list hInfo
  exact ⟨⟨info, hMem, hClient, hSource⟩, LocallyPresent.live_of_mem hInfo⟩

theorem setStage_handle {h i : HandleId} {j d : ChatRoomJoined} {stage : Stage}
    (hHandle : s.handles[h]? = some j) (hLookup : (s.setStage h j stage).handles[i]? = some d) :
    (i = h ∧ d = { j with stage }) ∨ (i ≠ h ∧ s.handles[i]? = some d) :=
  (getElem?_set_iff hHandle).mp hLookup

theorem Entered.insert {info : ClientInfo} {j : ChatRoomJoined} (hEntered : s.Entered j)
    (hSource : j.info.clientId = info.clientId → j.info.sourceId = info.sourceId) :
    ∃ entry, (s.locallyPresent.inner.insert info.clientId info)[j.info.clientId]? = some entry ∧
      entry.sourceId = j.info.sourceId := by
  obtain ⟨entry, hEntry, hEntrySource⟩ := hEntered
  by_cases hEq : j.info.clientId = info.clientId
  · exact ⟨info, by simp [hEq], (hSource hEq).symm⟩
  · exact ⟨entry, lookup_insert_iff.mpr (.inr ⟨hEq, hEntry⟩), hEntrySource⟩

theorem Entered.erase {clientId : Uuid} {j : ChatRoomJoined} (hEntered : s.Entered j)
    (hNe : j.info.clientId ≠ clientId) :
    ∃ entry, (s.locallyPresent.leave clientId).1.inner[j.info.clientId]? = some entry ∧
      entry.sourceId = j.info.sourceId := by
  obtain ⟨entry, hEntry, hSource⟩ := hEntered
  exact ⟨entry, lookup_erase_iff.mpr ⟨hNe, hEntry⟩, hSource⟩

theorem AllEntered.step (hAll : s.AllEntered) (hOk : s.Undisturbed e) (h : Effect s e s' o) :
    s'.AllEntered := by
  intro i d hLookup hHeld
  cases h with
  | entered info hGuard hLive =>
    obtain ⟨_, _, hInner⟩ := LocallyPresent.join_of_live hLive info
    unfold Entered
    simp only [hInner]
    rcases getElem?_snoc_iff.mp hLookup with hOld | ⟨_, rfl⟩
    · exact (hAll i d hOld hHeld).insert (hOk d (List.mem_of_getElem? hOld) hHeld)
    · exact ⟨info, by simp, rfl⟩
  | refused => exact hAll i d hLookup hHeld
  | joined h j hHandle hStage =>
    rcases setStage_handle hHandle hLookup with ⟨_, rfl⟩ | ⟨_, hOld⟩
    · exact hAll h j hHandle (.inl hStage)
    · exact hAll i d hOld hHeld
  | dropped h j hHandle hStage =>
    rcases setStage_handle hHandle hLookup with ⟨_, rfl⟩ | ⟨_, hOld⟩
    · simp [ChatRoomJoined.held] at hHeld
    · exact hAll i d hOld hHeld
  | emptied h j hHandle hStage hGuard hEmpty =>
    rcases setStage_handle hHandle hLookup with ⟨_, rfl⟩ | ⟨_, hOld⟩
    · simp [ChatRoomJoined.held] at hHeld
    · exact (hAll i d hOld hHeld).erase (hOk j hHandle d (List.mem_of_getElem? hOld) hHeld)
  | left h j hHandle hStage hGuard hOthers =>
    rcases setStage_handle hHandle hLookup with ⟨_, rfl⟩ | ⟨_, hOld⟩
    · simp [ChatRoomJoined.held] at hHeld
    · exact (hAll i d hOld hHeld).erase (hOk j hHandle d (List.mem_of_getElem? hOld) hHeld)
  | closed h j hHandle hStage hGuard =>
    rcases setStage_handle hHandle hLookup with ⟨_, rfl⟩ | ⟨_, hOld⟩
    · simp [ChatRoomJoined.held] at hHeld
    · exact hAll i d hOld hHeld

theorem new_allEntered (channelId : Uuid) : (new channelId).AllEntered := by
  simp [AllEntered, new]

theorem present_along (channelId : Uuid) (es : List Event) (s : ChannelEvents) (tr : List Output)
    (hRun : Machine.run step (new channelId) es = some (s, tr))
    (hAlong : Machine.Along step Undisturbed (new channelId) es) : s.Present := by
  have hAll : s.AllEntered :=
    Machine.run_induction_along (P := fun s _ => s.AllEntered) (new_allEntered channelId)
      (fun _ _ _ _ _ hAll hOk h => hAll.step hOk (step_effect h)) hAlong hRun
  exact hAll.present

/-- A client joins again after the leave of its earlier handle has run. -/
def rejoined : List Event :=
  [.join ⟨1, 10, "a"⟩, .joined 0, .join ⟨2, 20, "b"⟩, .joined 1, .drop 0, .leave 0,
    .join ⟨1, 11, "a"⟩, .joined 2]

theorem present_along_rejoined : ∃ s tr,
    Machine.run step (new 7) rejoined = some (s, tr) ∧ s.Present := by
  obtain ⟨⟨s, tr⟩, hRun⟩ : ∃ last, Machine.run step (new 7) rejoined = some last :=
    Option.isSome_iff_exists.mp (by decide)
  exact ⟨s, tr, hRun, present_along 7 rejoined s tr hRun (by decide)⟩

/-- A client joins again before the leave of its earlier handle has run. -/
def overtaken : List Event :=
  [.join ⟨1, 10, "a"⟩, .joined 0, .drop 0, .join ⟨1, 11, "a"⟩, .joined 1, .leave 0]

/-- The second handle of client 1 is live in a closed channel without members. -/
theorem not_present : ¬ ∀ (channelId : Uuid) (es : List Event) (s : ChannelEvents) (tr : List Output),
    Machine.run step (new channelId) es = some (s, tr) → s.Present := by
  intro hAll
  have hLast : (Machine.run step (new 7) overtaken).map (fun last =>
      (last.1.handles[1]?, last.1.locallyPresent.live)) = some (some ⟨⟨1, 11, "a"⟩, .live⟩, false) := by
    decide
  obtain ⟨⟨s, tr⟩, hRun, hState⟩ := Option.map_eq_some_iff.mp hLast
  simp only [Prod.mk.injEq] at hState
  obtain ⟨hHandle, hClosed⟩ := hState
  obtain ⟨_, hLive⟩ := hAll 7 overtaken s tr hRun 1 _ hHandle rfl
  cases hClosed.symm.trans hLive

end ChannelEvents

end Voices.Gateway
