import Voices.Gateway.Distributed
import Voices.Gateway.View

/-!
# The announcements of a distributed channel

A client is stored in the hash, announced by its join, withdrawn by its leave and
erased from the hash; the stage of its handle says how far it is. What is published
is the history of the channel, of which a session gets the end from its subscription
on, as long as the source of its instance is subscribed.
-/

namespace Voices.Gateway

open Semantics VoiceServer Std

def ChannelEvent.update (event : ChannelEvent) : Replay.Update Uuid :=
  match event.kind with
  | .joined _ => .add event.source
  | .left _ => .remove event.source

theorem ChannelEvent.update_member (event : ChannelEvent) : event.update.member = event.source := by
  unfold ChannelEvent.update
  split <;> rfl

def announcements (events : List ChannelEvent) : List (Replay.Update Uuid) :=
  events.map ChannelEvent.update

def clientIds (present : List ClientInfo) : Finset Uuid := (present.map ClientInfo.clientId).toFinset

def RoomStage.status : RoomStage → Replay.Status
  | .joining | .subscribed => .absent
  | .entered => .stored
  | .live | .dropped | .leaving => .announced
  | .parted => .withdrawn
  | .left => .erased

/-- Every client has one handle. -/
def Once (handles : List RoomHandle) : Prop :=
  ∀ (g h : HandleId) (d j : RoomHandle), handles[g]? = some d → handles[h]? = some j →
    d.info.clientId = j.info.clientId → g = h

def status (handles : List RoomHandle) (x : Uuid) : Replay.Status :=
  (handles.find? fun j => j.info.clientId = x).elim .absent fun j => j.stage.status

section Handles

variable {handles : List RoomHandle} {h : HandleId} {j j' : RoomHandle} {x : Uuid}

theorem Once.set (hOnce : Once handles) (hHandle : handles[h]? = some j) (hInfo : j'.info = j.info) :
    Once (handles.set h j') := by
  have hOld {g : HandleId} {d : RoomHandle} (hLookup : (handles.set h j')[g]? = some d) :
      ∃ d', handles[g]? = some d' ∧ d'.info = d.info := by
    rcases (getElem?_set_iff hHandle).mp hLookup with ⟨rfl, rfl⟩ | ⟨_, hSame⟩
    · exact ⟨j, hHandle, hInfo.symm⟩
    · exact ⟨d, hSame, rfl⟩
  intro g i d q hOther hLookup hEq
  obtain ⟨d', hD, hDInfo⟩ := hOld hOther
  obtain ⟨q', hQ, hQInfo⟩ := hOld hLookup
  exact hOnce g i d' q' hD hQ (by rw [hDInfo, hQInfo, hEq])

theorem Once.snoc (hOnce : Once handles) (hNew : ∀ d ∈ handles, d.info.clientId ≠ j.info.clientId) :
    Once (handles ++ [j]) := by
  intro g i d q hOther hLookup hEq
  rcases getElem?_snoc_iff.mp hOther with hOldD | ⟨rfl, rfl⟩ <;>
    rcases getElem?_snoc_iff.mp hLookup with hOldQ | ⟨rfl, rfl⟩
  · exact hOnce g i d q hOldD hOldQ hEq
  · exact absurd hEq (hNew d (List.mem_of_getElem? hOldD))
  · exact absurd hEq.symm (hNew q (List.mem_of_getElem? hOldQ))
  · rfl

theorem Once.find_eq_some_iff (hOnce : Once handles) :
    handles.find? (fun j => j.info.clientId = x) = some j ↔
      ∃ h : HandleId, handles[h]? = some j ∧ j.info.clientId = x := by
  have hFound {d : RoomHandle} (hFind : handles.find? (fun j => j.info.clientId = x) = some d) :
      ∃ g : HandleId, handles[g]? = some d ∧ d.info.clientId = x := by
    obtain ⟨g, hLookup⟩ := List.getElem?_of_mem (List.mem_of_find?_eq_some hFind)
    exact ⟨g, hLookup, by simpa using List.find?_some hFind⟩
  refine ⟨hFound, ?_⟩
  rintro ⟨h, hHandle, hClient⟩
  cases hFind : handles.find? (fun j => j.info.clientId = x) with
  | none =>
    have hNone := List.find?_eq_none.mp hFind j (List.mem_of_getElem? hHandle)
    simp [hClient] at hNone
  | some d =>
    obtain ⟨g, hLookup, hD⟩ := hFound hFind
    obtain rfl := hOnce g h d j hLookup hHandle (hD.trans hClient.symm)
    exact hLookup.symm.trans hHandle

theorem Once.status (hOnce : Once handles) (hHandle : handles[h]? = some j) :
    status handles j.info.clientId = j.stage.status := by
  rw [Gateway.status, hOnce.find_eq_some_iff.mpr ⟨h, hHandle, rfl⟩]
  rfl

theorem Once.exists_of_status (hOnce : Once handles) (hStatus : Gateway.status handles x ≠ .absent) :
    ∃ (h : HandleId) (j : RoomHandle), handles[h]? = some j ∧ j.info.clientId = x ∧
      j.stage.status = Gateway.status handles x := by
  unfold Gateway.status at hStatus ⊢
  cases hFind : handles.find? (fun j => j.info.clientId = x) with
  | none => simp [hFind] at hStatus
  | some j =>
    obtain ⟨h, hHandle, hClient⟩ := hOnce.find_eq_some_iff.mp hFind
    exact ⟨h, j, hHandle, hClient, rfl⟩

theorem Once.status_set (hOnce : Once handles) (hHandle : handles[h]? = some j)
    (hInfo : j'.info = j.info) : Gateway.status (handles.set h j') =
      Function.update (Gateway.status handles) j.info.clientId j'.stage.status := by
  have hSet := hOnce.set hHandle hInfo
  funext x
  by_cases hEq : x = j.info.clientId
  · subst hEq
    rw [Function.update_self, ← hInfo]
    exact hSet.status (getElem?_set_here hHandle)
  · rw [Function.update_of_ne hEq, Gateway.status, Gateway.status]
    have hFind : (handles.set h j').find? (fun j => j.info.clientId = x) =
        handles.find? fun j => j.info.clientId = x := by
      ext d
      rw [hSet.find_eq_some_iff, hOnce.find_eq_some_iff]
      constructor
      · rintro ⟨g, hLookup, rfl⟩
        rcases (getElem?_set_iff hHandle).mp hLookup with ⟨rfl, rfl⟩ | ⟨_, hOld⟩
        · exact absurd (by rw [hInfo]) hEq
        · exact ⟨g, hOld, rfl⟩
      · rintro ⟨g, hLookup, rfl⟩
        refine ⟨g, getElem?_set_there hHandle ?_ hLookup, rfl⟩
        rintro rfl
        cases hHandle.symm.trans hLookup
        exact hEq rfl
    rw [hFind]

theorem status_snoc (hAbsent : j.stage.status = .absent) : status (handles ++ [j]) = status handles := by
  funext x
  rw [status, status, List.find?_append]
  cases handles.find? (fun j => j.info.clientId = x) with
  | some d => rfl
  | none =>
    by_cases hEq : j.info.clientId = x <;> simp [hEq, hAbsent]

end Handles

/-- A session of the instance `r` has the end of what has been published from its subscription on,
and a snapshot that agrees where it has no announcement. -/
structure Follows (status : Uuid → Replay.Status) (published : List ChannelEvent) (info : ClientInfo)
    (u : Updates) (r : RedisChannelEvents) : Prop where
  exact : LocalChannelEvents.Exact r.tx u
  log : r.log u <:+ published
  silent : r.source.isSubscribed = false → r.log u = []
  agrees : ∀ present ∈ u.present, ∀ x, x ≠ info.clientId →
    Replay.Agrees status (clientIds present) (announcements (r.log u)) x

namespace Follows

variable {status status' : Uuid → Replay.Status} {published : List ChannelEvent} {info : ClientInfo}
  {u : Updates} {r : RedisChannelEvents}

theorem subscribe (hInbox : r.inbox <:+ published)
    (hSilent : r.source.isSubscribed = false → r.inbox = []) :
    Follows status published info ⟨r.tx.length, r.tx.length, none, []⟩ r where
  exact := ⟨Nat.le_refl _, Nat.le_refl _, by simp⟩
  log := by simpa [RedisChannelEvents.log] using hInbox
  silent hSource := by simp [RedisChannelEvents.log, hSilent hSource]
  agrees present hPresent := by cases hPresent

theorem congr (hFollows : Follows status published info u r)
    (hStatus : ∀ present ∈ u.present, ∀ x, x ≠ info.clientId →
      Replay.Agrees status (clientIds present) (announcements (r.log u)) x →
      Replay.Agrees status' (clientIds present) (announcements (r.log u)) x) :
    Follows status' published info u r where
  exact := hFollows.exact
  log := hFollows.log
  silent := hFollows.silent
  agrees present hPresent x hNe := hStatus present hPresent x hNe (hFollows.agrees present hPresent x hNe)

/-- The publication of an event reaches the session or is of no concern to it. -/
theorem publish (hFollows : Follows status published info u r) (event : ChannelEvent)
    (hReaches : ∀ present ∈ u.present, event.source ≠ info.clientId →
      r.source.isSubscribed = true ∨
        (event.update.status = .announced ∧ event.source ∈ clientIds present)) :
    Follows (Function.update status event.source event.update.status) (published ++ [event]) info u
      (r.publish event) := by
  cases hSource : r.source.isSubscribed with
  | true =>
    have hLog : (r.publish event).log u = r.log u ++ [event] := by
      simp [RedisChannelEvents.publish, RedisChannelEvents.log, hSource]
    have hSame : r.publish event = { r with inbox := r.inbox ++ [event] } := by
      simp [RedisChannelEvents.publish, hSource]
    refine ⟨?_, ?_, ?_, fun present hPresent x hNe => ?_⟩
    · rw [hSame]
      exact hFollows.exact
    · rw [hLog]
      exact List.suffix_concat_iff.mpr (.inr ⟨_, rfl, hFollows.log⟩)
    · rw [hSame]
      exact fun hNot => absurd (hSource.symm.trans hNot) (by simp)
    · rw [hLog, announcements, List.map_append, List.map_singleton]
      by_cases hEq : x = event.source
      · rw [hEq, ← event.update_member]
        exact .reached
      · exact ((hFollows.agrees present hPresent x hNe).congr (Function.update_of_ne hEq _ _)).append _
  | false =>
    have hSame : r.publish event = r := by simp [RedisChannelEvents.publish, hSource]
    rw [hSame]
    refine ⟨hFollows.exact, ?_, hFollows.silent, fun present hPresent x hNe => ?_⟩
    · rw [hFollows.silent hSource]
      exact List.nil_suffix
    · by_cases hEq : x = event.source
      · subst hEq
        obtain ⟨hAdded, hMem⟩ :=
          (hReaches present hPresent hNe).resolve_left (by simp [hSource])
        exact .missed hMem (by rw [Function.update_self, hAdded])
      · exact (hFollows.agrees present hPresent x hNe).congr (Function.update_of_ne hEq _ _)

/-- What the source hands on moves from the inbox to the broadcast channel. -/
theorem deliver (hFollows : Follows status published info u r) {event : ChannelEvent}
    {inbox : List ChannelEvent} (hInbox : r.inbox = event :: inbox) (source : EventSource)
    (hSource : source.isSubscribed = true) :
    Follows status published info u { r with source, inbox, tx := r.tx ++ [event] } := by
  have hLog : RedisChannelEvents.log { r with source, inbox, tx := r.tx ++ [event] } u = r.log u := by
    simp only [RedisChannelEvents.log, hInbox]
    rw [List.drop_append_of_le_length (hFollows.exact.start_le.trans hFollows.exact.next_le),
      List.append_assoc, List.singleton_append]
  refine ⟨hFollows.exact.send [event], ?_, ?_, ?_⟩
  · rw [hLog]
    exact hFollows.log
  · exact fun hNot => absurd (hSource.symm.trans hNot) (by simp)
  · rw [hLog]
    exact hFollows.agrees

end Follows

end Voices.Gateway
