import Voices.Gateway.Presence

/-!
# A channel state and its handles

`join` enters the client under the lock on the presence and makes the handle
after it has released the lock. The handle's drop is noticed by the task that
was spawned with it, and between any two of these steps the other handles of
the channel may take theirs.
-/

namespace Voices.Gateway

open Semantics VoiceServer Std

/-- How far a join, and later the task that was spawned with its handle, has come. -/
inductive Stage where
  | joining
  | live
  | dropped
  | closing
  | left
  deriving DecidableEq

structure ChatRoomJoined where
  info : ClientInfo
  stage : Stage
  deriving DecidableEq

/-- The handle of a `join`, by the order of the joins. -/
abbrev HandleId := Nat

/-- `guard` is the handle whose leave holds the lock on the presence while it waits for
`ChannelMap::close`. -/
structure ChannelEvents where
  channelId : Uuid
  locallyPresent : LocallyPresent
  guard : Option HandleId
  handles : List ChatRoomJoined

namespace ChannelEvents

inductive Event where
  | join (info : ClientInfo)
  | joined (handle : HandleId)
  | drop (handle : HandleId)
  | leave (handle : HandleId)
  | closed (handle : HandleId)
  deriving DecidableEq

inductive Output where
  | refused (info : ClientInfo)
  | joined (handle : HandleId)
  | sent (event : ChannelEvent)
  deriving DecidableEq

def new (channelId : Uuid) : ChannelEvents :=
  { channelId, locallyPresent := .new, guard := none, handles := [] }

def setStage (s : ChannelEvents) (h : HandleId) (j : ChatRoomJoined) (stage : Stage) : ChannelEvents :=
  { s with handles := s.handles.set h { j with stage } }

/-- The part of `join` under the lock. -/
def join (s : ChannelEvents) (info : ClientInfo) : ChannelEvents × List Output :=
  let (present, ok) := s.locallyPresent.join info
  if ok then
    ({ s with locallyPresent := present, handles := s.handles ++ [⟨info, .joining⟩] }, [])
  else (s, [.refused info])

/-- The part of `leave` up to `ChannelMap::close`, or to its end when the channel is not empty. -/
def leave (s : ChannelEvents) (h : HandleId) (j : ChatRoomJoined) : ChannelEvents × List Output :=
  let (present, empty) := s.locallyPresent.leave j.info.clientId
  let s := { s with locallyPresent := present }
  if empty then ({ s.setStage h j .closing with guard := some h }, [])
  else (s.setStage h j .left, [.sent (.left j.info)])

def listMembers (s : ChannelEvents) : List ClientInfo := s.locallyPresent.list

def handle (s : ChannelEvents) (h : HandleId) (stage : Stage) : Option ChatRoomJoined :=
  s.handles[h]?.filter fun j => j.stage == stage

def step (s : ChannelEvents) : Event → Option (ChannelEvents × List Output)
  | .join info => if s.guard.isNone then some (s.join info) else none
  | .joined h =>
    (s.handle h .joining).map fun j => (s.setStage h j .live, [.sent (.joined j.info), .joined h])
  | .drop h => (s.handle h .live).map fun j => (s.setStage h j .dropped, [])
  | .leave h => if s.guard.isNone then (s.handle h .dropped).map fun j => s.leave h j else none
  | .closed h =>
    if s.guard = some h then
      (s.handle h .closing).map fun j =>
        ({ s.setStage h j .left with guard := none }, [.sent (.left j.info)])
    else none

end ChannelEvents

/-- A client is in the presence on account of this handle. -/
def ChatRoomJoined.held (j : ChatRoomJoined) : Prop := j.stage = .joining ∨ j.stage = .live

instance (j : ChatRoomJoined) : Decidable j.held :=
  inferInstanceAs (Decidable (j.stage = .joining ∨ j.stage = .live))

open ChannelEvents in
inductive ChannelEvents.Effect (s : ChannelEvents) :
    ChannelEvents.Event → ChannelEvents → List Output → Prop where
  | entered (info : ClientInfo) (hGuard : s.guard = none) (hLive : s.locallyPresent.live = true) :
      Effect s (.join info)
        { s with
          locallyPresent := (s.locallyPresent.join info).1
          handles := s.handles ++ [⟨info, .joining⟩] } []
  | refused (info : ClientInfo) (hGuard : s.guard = none) (hClosed : s.locallyPresent.live = false) :
      Effect s (.join info) s [.refused info]
  | joined (h : HandleId) (j : ChatRoomJoined) (hHandle : s.handles[h]? = some j)
      (hStage : j.stage = .joining) :
      Effect s (.joined h) (s.setStage h j .live) [.sent (.joined j.info), .joined h]
  | dropped (h : HandleId) (j : ChatRoomJoined) (hHandle : s.handles[h]? = some j)
      (hStage : j.stage = .live) : Effect s (.drop h) (s.setStage h j .dropped) []
  | emptied (h : HandleId) (j : ChatRoomJoined) (hHandle : s.handles[h]? = some j)
      (hStage : j.stage = .dropped) (hGuard : s.guard = none)
      (hEmpty : (s.locallyPresent.leave j.info.clientId).2 = true) :
      Effect s (.leave h)
        { s.setStage h j .closing with
          locallyPresent := (s.locallyPresent.leave j.info.clientId).1, guard := some h } []
  | left (h : HandleId) (j : ChatRoomJoined) (hHandle : s.handles[h]? = some j)
      (hStage : j.stage = .dropped) (hGuard : s.guard = none)
      (hOthers : (s.locallyPresent.leave j.info.clientId).2 = false) :
      Effect s (.leave h)
        { s.setStage h j .left with
          locallyPresent := (s.locallyPresent.leave j.info.clientId).1 } [.sent (.left j.info)]
  | closed (h : HandleId) (j : ChatRoomJoined) (hHandle : s.handles[h]? = some j)
      (hStage : j.stage = .closing) (hGuard : s.guard = some h) :
      Effect s (.closed h) { s.setStage h j .left with guard := none } [.sent (.left j.info)]

namespace ChannelEvents

variable {s s' : ChannelEvents} {e : Event} {o : List Output}

theorem handle_eq_some_iff {h : HandleId} {stage : Stage} {j : ChatRoomJoined} :
    s.handle h stage = some j ↔ s.handles[h]? = some j ∧ j.stage = stage := by
  simp [handle, Option.filter_eq_some_iff]

theorem step_effect (hStep : step s e = some (s', o)) : Effect s e s' o := by
  cases e with
  | join info =>
    simp only [step, Option.isNone_iff_eq_none, Option.ite_none_right_eq_some, Option.some.injEq] at hStep
    obtain ⟨hGuard, hJoin⟩ := hStep
    cases hLive : s.locallyPresent.live with
    | true =>
      obtain ⟨hOk, _, _⟩ := LocallyPresent.join_of_live hLive info
      simp only [join, hOk, if_true, Prod.mk.injEq] at hJoin
      obtain ⟨rfl, rfl⟩ := hJoin
      exact .entered info hGuard hLive
    | false =>
      simp only [join, LocallyPresent.join_of_closed hLive] at hJoin
      obtain ⟨rfl, rfl⟩ := hJoin
      exact .refused info hGuard hLive
  | joined h =>
    simp only [step, Option.map_eq_some_iff, Prod.mk.injEq] at hStep
    obtain ⟨j, hHandle, rfl, rfl⟩ := hStep
    obtain ⟨hHandle, hStage⟩ := handle_eq_some_iff.mp hHandle
    exact .joined h j hHandle hStage
  | drop h =>
    simp only [step, Option.map_eq_some_iff, Prod.mk.injEq] at hStep
    obtain ⟨j, hHandle, rfl, rfl⟩ := hStep
    obtain ⟨hHandle, hStage⟩ := handle_eq_some_iff.mp hHandle
    exact .dropped h j hHandle hStage
  | leave h =>
    simp only [step, Option.isNone_iff_eq_none, Option.ite_none_right_eq_some,
      Option.map_eq_some_iff] at hStep
    obtain ⟨hGuard, j, hHandle, hLeave⟩ := hStep
    obtain ⟨hHandle, hStage⟩ := handle_eq_some_iff.mp hHandle
    cases hEmpty : (s.locallyPresent.leave j.info.clientId).2 with
    | true =>
      simp only [leave, hEmpty, if_true, Prod.mk.injEq] at hLeave
      obtain ⟨rfl, rfl⟩ := hLeave
      exact .emptied h j hHandle hStage hGuard hEmpty
    | false =>
      simp only [leave, hEmpty, Bool.false_eq_true, if_false, Prod.mk.injEq] at hLeave
      obtain ⟨rfl, rfl⟩ := hLeave
      exact .left h j hHandle hStage hGuard hEmpty
  | closed h =>
    simp only [step, Option.ite_none_right_eq_some, Option.map_eq_some_iff, Prod.mk.injEq] at hStep
    obtain ⟨hGuard, j, hHandle, rfl, rfl⟩ := hStep
    obtain ⟨hHandle, hStage⟩ := handle_eq_some_iff.mp hHandle
    exact .closed h j hHandle hStage hGuard

end ChannelEvents

end Voices.Gateway
