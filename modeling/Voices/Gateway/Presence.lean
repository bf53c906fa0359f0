import Std.Data.TreeMap
import Voices.Semantics.Indexed
import Voices.Semantics.Run
import Voices.VoiceServer.Proto

/-!
# Presence in a channel of the gateway

`channels/mod.rs` and `channels/state`: a channel state keeps the clients that
are present by their ids, and a join returns a handle whose drop lets a task
leave at some later time. A leave that finds the channel empty closes it for
good and holds the lock on the presence until the channel map has dropped the
channel. `LocalChannelEvents` and `RedisChannelEvents` do all this alike; they
differ in where `send` takes an event.
-/

namespace Voices.Gateway

open Semantics VoiceServer Std

structure ClientInfo where
  clientId : Uuid
  sourceId : UInt32
  name : String
  deriving DecidableEq

inductive ChannelEventKind where
  | joined (name : String)
  | left (name : String)
  deriving DecidableEq

structure ChannelEvent where
  source : Uuid
  sourceId : UInt32
  kind : ChannelEventKind
  deriving DecidableEq

def ChannelEvent.joined (info : ClientInfo) : ChannelEvent :=
  ⟨info.clientId, info.sourceId, .joined info.name⟩

def ChannelEvent.left (info : ClientInfo) : ChannelEvent :=
  ⟨info.clientId, info.sourceId, .left info.name⟩

/-- A presence that is not live is empty, and an entry stands under its client's id. -/
structure LocallyPresent where
  inner : TreeMap Uuid ClientInfo
  live : Bool
  closed : live = false → inner.isEmpty = true
  keyed : ∀ (id : Uuid) (info : ClientInfo), inner[id]? = some info → info.clientId = id

namespace LocallyPresent

def new : LocallyPresent where
  inner := ∅
  live := true
  closed := by simp
  keyed := by simp

def join (p : LocallyPresent) (info : ClientInfo) : LocallyPresent × Bool :=
  if hLive : p.live then
    ({ inner := p.inner.insert info.clientId info
       live := p.live
       closed := by simp [hLive]
       keyed := by
        intro id other hOther
        rw [TreeMap.getElem?_insert] at hOther
        split at hOther
        · rename_i hEq
          cases hOther
          exact compare_eq_iff_eq.mp hEq
        · exact p.keyed id other hOther }, true)
  else (p, false)

def leave (p : LocallyPresent) (clientId : Uuid) : LocallyPresent × Bool :=
  let inner := p.inner.erase clientId
  let live := !inner.isEmpty
  ({ inner, live
     closed := by simp [live]
     keyed := by
      intro id info hInfo
      rw [TreeMap.getElem?_erase] at hInfo
      split at hInfo
      · cases hInfo
      · exact p.keyed id info hInfo }, !live)

def list (p : LocallyPresent) : List ClientInfo := p.inner.toList.map Prod.snd

variable {p : LocallyPresent} {info : ClientInfo} {clientId id : Uuid}

theorem join_of_live (hLive : p.live = true) (info : ClientInfo) :
    (p.join info).2 = true ∧ (p.join info).1.live = true ∧
      (p.join info).1.inner = p.inner.insert info.clientId info := by
  simp [join, hLive]

theorem join_of_closed (hClosed : p.live = false) : p.join info = (p, false) := by
  simp [join, hClosed]

theorem leave_inner : (p.leave clientId).1.inner = p.inner.erase clientId := rfl

theorem leave_live : (p.leave clientId).1.live = !(p.leave clientId).2 := by
  simp [leave]

theorem leave_empty_iff :
    (p.leave clientId).2 = true ↔ ∀ id info, p.inner[id]? = some info → id = clientId := by
  simp only [leave, Bool.not_not, TreeMap.isEmpty_iff_forall_not_mem]
  constructor
  · intro hEmpty id info hInfo
    by_contra hNe
    refine hEmpty id (TreeMap.mem_erase.mpr ⟨?_, TreeMap.mem_iff_isSome_getElem?.mpr (by simp [hInfo])⟩)
    simpa using Ne.symm hNe
  · intro hOnly id hMem
    obtain ⟨hNe, hMem⟩ := TreeMap.mem_erase.mp hMem
    obtain ⟨info, hInfo⟩ := Option.isSome_iff_exists.mp (TreeMap.mem_iff_isSome_getElem?.mp hMem)
    simp [hOnly id info hInfo] at hNe

theorem live_of_mem (hInfo : p.inner[id]? = some info) : p.live = true := by
  by_contra hClosed
  have hEmpty := p.closed (by simpa using hClosed)
  rw [TreeMap.isEmpty_iff_forall_not_mem] at hEmpty
  exact hEmpty id (TreeMap.mem_iff_isSome_getElem?.mpr (by simp [hInfo]))

theorem mem_list (hInfo : p.inner[id]? = some info) : info ∈ p.list ∧ info.clientId = id :=
  ⟨List.mem_map.mpr ⟨(id, info), TreeMap.mem_toList_iff_getElem?_eq_some.mpr hInfo, rfl⟩,
    p.keyed id info hInfo⟩

theorem mem_list_iff : info ∈ p.list ↔ p.inner[info.clientId]? = some info := by
  constructor
  · intro hMem
    obtain ⟨⟨id, other⟩, hEntry, hEq⟩ := List.mem_map.mp hMem
    cases hEq
    have hInfo := TreeMap.mem_toList_iff_getElem?_eq_some.mp hEntry
    rwa [p.keyed id other hInfo]
  · exact fun hInfo => (mem_list hInfo).1

end LocallyPresent

end Voices.Gateway
