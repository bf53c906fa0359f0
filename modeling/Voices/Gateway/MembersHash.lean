import Voices.Gateway.Distributed

/-!
# The members hash with its timestamps

Beside the record of a client the hash of a channel has a field for when the client
was last seen. The join writes both in one command and the task that `join` spawns
writes the second again every few seconds; a leave deletes the first only. The list
of the members passes over the fields of the second kind.
-/

namespace Voices.Gateway

open Semantics VoiceServer Std

/-- The names of the fields, by their client: its id, or that after `last_seen:`. -/
inductive Field where
  | member (clientId : Uuid)
  | lastSeen (clientId : Uuid)
  deriving DecidableEq

inductive FieldValue where
  | record (info : ClientInfo)
  | timestamp (time : Nat)
  deriving DecidableEq

def Field.clientId : Field → Uuid
  | .member clientId => clientId
  | .lastSeen clientId => clientId

/-- The field starts with `last_seen`. -/
def Field.isLastSeen : Field → Bool
  | .member _ => false
  | .lastSeen _ => true

def FieldValue.clientInfo : FieldValue → Option ClientInfo
  | .record info => some info
  | .timestamp _ => none

/-- The task of the handle is in its loop. A drop does not keep a tick from coming first. -/
def RoomStage.refreshing : RoomStage → Bool
  | .subscribed | .entered | .live | .dropped => true
  | .joining | .leaving | .parted | .left => false

/-- The handle has written its fields. -/
def RoomStage.written : RoomStage → Bool
  | .joining | .subscribed => false
  | .entered | .live | .dropped | .leaving | .parted | .left => true

/-- The fields of each kind are kept by their clients. -/
structure MembersHash where
  channel : DistributedChannel
  lastSeen : TreeMap Uuid Nat

namespace MembersHash

/-- A command of a handle or another step of the channel, or a tick of the task of a handle. -/
inductive Event where
  | channel (event : DistributedChannel.Event)
  | refreshMember (handle : HandleId)
  deriving DecidableEq

def new : MembersHash := { channel := .new, lastSeen := ∅ }

def seen (s : MembersHash) (j : RoomHandle) : TreeMap Uuid Nat :=
  s.lastSeen.insert j.info.clientId s.channel.now

/-- The second field of `hset_multiple`. -/
def hsetMultiple (s : MembersHash) : DistributedChannel.Event → TreeMap Uuid Nat
  | .hset h => (s.channel.handles[h]?).elim s.lastSeen s.seen
  | _ => s.lastSeen

def step (slots : Nat) (s : MembersHash) : Event → Option (MembersHash × List ChannelEvent)
  | .channel e =>
    (s.channel.step slots e).map fun next =>
      ({ channel := next.1, lastSeen := s.hsetMultiple e }, next.2)
  | .refreshMember h =>
    match s.channel.handles[h]? with
    | some j => if j.stage.refreshing then some ({ s with lastSeen := s.seen j }, []) else none
    | none => none

def hgetall (s : MembersHash) : List (Field × FieldValue) :=
  s.channel.members.toList.map (fun entry => (Field.member entry.1, FieldValue.record entry.2)) ++
    s.lastSeen.toList.map fun entry => (Field.lastSeen entry.1, FieldValue.timestamp entry.2)

def listMembers (s : MembersHash) : List ClientInfo :=
  (s.hgetall.filter fun v => !v.1.isLastSeen).filterMap fun v => v.2.clientInfo

/-- The fields of the client that the hash has. -/
def fields (s : MembersHash) (clientId : Uuid) : List Field :=
  (s.hgetall.map Prod.fst).filter fun f => f.clientId = clientId

/-- A leave of the client is complete, and all its other handles are gone as well. -/
def Departed (s : MembersHash) (clientId : Uuid) : Prop :=
  (∃ j ∈ s.channel.handles, j.info.clientId = clientId) ∧
    ∀ j ∈ s.channel.handles, j.info.clientId = clientId → j.stage = .left

variable {s s' : MembersHash} {slots : Nat} {id : Uuid}

theorem map_fst_hgetall (s : MembersHash) :
    s.hgetall.map Prod.fst = s.channel.members.keys.map .member ++ s.lastSeen.keys.map .lastSeen := by
  rw [hgetall, List.map_append, List.map_map, List.map_map, ← TreeMap.map_fst_toList_eq_keys,
    ← TreeMap.map_fst_toList_eq_keys, List.map_map, List.map_map]
  rfl

theorem member_mem_fields_iff : Field.member id ∈ s.fields id ↔ id ∈ s.channel.members := by
  simp [fields, map_fst_hgetall, Field.clientId]

theorem lastSeen_mem_fields_iff : Field.lastSeen id ∈ s.fields id ↔ id ∈ s.lastSeen := by
  simp [fields, map_fst_hgetall, Field.clientId]

/-- The list has the records alone. -/
theorem listMembers_eq (s : MembersHash) : s.listMembers = s.channel.listMembers := by
  have hRecords : ∀ entries : List (Uuid × ClientInfo),
      ((entries.map fun entry => (Field.member entry.1, FieldValue.record entry.2)).filter
        fun v => !v.1.isLastSeen).filterMap (fun v => v.2.clientInfo) = entries.map Prod.snd := by
    intro entries
    induction entries with
    | nil => rfl
    | cons entry rest ih => exact congrArg (List.cons entry.2) ih
  have hTimestamps : ∀ entries : List (Uuid × Nat),
      (entries.map fun entry => (Field.lastSeen entry.1, FieldValue.timestamp entry.2)).filter
        (fun v => !v.1.isLastSeen) = [] := by
    intro entries
    induction entries with
    | nil => rfl
    | cons entry rest ih => exact ih
  rw [listMembers, hgetall, List.filter_append, List.filterMap_append, hTimestamps, hRecords]
  exact List.append_nil _

/-! ### The handles -/

/-- The clients of the handles and how far these are. -/
def stages (handles : List RoomHandle) : List (Uuid × RoomStage) :=
  handles.map fun j => (j.info.clientId, j.stage)

theorem stages_set {handles : List RoomHandle} (h : HandleId) (j : RoomHandle) :
    stages (handles.set h j) = (stages handles).set h (j.info.clientId, j.stage) := List.map_set

theorem getElem?_stages {handles : List RoomHandle} {h : HandleId} {j : RoomHandle}
    (hHandle : handles[h]? = some j) : (stages handles)[h]? = some (j.info.clientId, j.stage) := by
  rw [stages, List.getElem?_map, hHandle]
  rfl

theorem stages_set_self {handles : List RoomHandle} {h : HandleId} {j j' : RoomHandle}
    (hHandle : handles[h]? = some j) (hInfo : j'.info = j.info) (hStage : j'.stage = j.stage) :
    stages (handles.set h j') = stages handles := by
  rw [stages_set, hInfo, hStage]
  obtain ⟨hLt, hGet⟩ := List.getElem?_eq_some_iff.mp (getElem?_stages hHandle)
  rw [← hGet, List.set_getElem_self]

/-- The handle has written its fields and has not deleted its record. -/
def holding (stage : RoomStage) : Bool := stage.written && stage != .left

/-- What a step of the channel does with the stages of the handles and the records. -/
inductive Effect (s : DistributedChannel) : DistributedChannel.Event → List (Uuid × RoomStage) →
    TreeMap Uuid ClientInfo → Prop
  | kept (e : DistributedChannel.Event) : Effect s e (stages s.handles) s.members
  | joining (e : DistributedChannel.Event) (id : Uuid) :
      Effect s e (stages s.handles ++ [(id, RoomStage.joining)]) s.members
  | moved (e : DistributedChannel.Event) (h : HandleId) (j : RoomHandle) (stage : RoomStage)
      (hHandle : s.handles[h]? = some j) (hWritten : stage.written = j.stage.written)
      (hHolding : holding stage = holding j.stage) :
      Effect s e ((stages s.handles).set h (j.info.clientId, stage)) s.members
  | entered (h : HandleId) (j : RoomHandle) (hHandle : s.handles[h]? = some j) :
      Effect s (.hset h) ((stages s.handles).set h (j.info.clientId, .entered))
        (s.members.insert j.info.clientId j.info)
  | left (h : HandleId) (j : RoomHandle) (hHandle : s.handles[h]? = some j)
      (hStage : j.stage = .parted) :
      Effect s (.hdel h) ((stages s.handles).set h (j.info.clientId, .left))
        (s.members.erase j.info.clientId)

theorem Effect.move {s : DistributedChannel} (e : DistributedChannel.Event) {h : HandleId} {j : RoomHandle}
    {stage : RoomStage} (hHandle : s.handles[h]? = some j) (hWritten : stage.written = j.stage.written)
    (hHolding : holding stage = holding j.stage) {j' : RoomHandle} (hInfo : j'.info = j.info)
    (hStage : j'.stage = stage) : Effect s e (stages (s.handles.set h j')) s.members := by
  rw [stages_set, hInfo, hStage]
  exact .moved e h j stage hHandle hWritten hHolding

theorem Effect.keep {s : DistributedChannel} (e : DistributedChannel.Event) {h : HandleId} {j j' : RoomHandle}
    (hHandle : s.handles[h]? = some j) (hInfo : j'.info = j.info) (hStage : j'.stage = j.stage) :
    Effect s e (stages (s.handles.set h j')) s.members := by
  rw [stages_set_self hHandle hInfo hStage]
  exact .kept e

theorem step_effect {s s' : DistributedChannel} {e : DistributedChannel.Event}
    {o : List ChannelEvent} (hStep : s.step slots e = some (s', o)) :
    Effect s e (stages s'.handles) s'.members := by
  cases e with
  | init =>
    cases hStep
    exact .kept _
  | connect i =>
    simp only [DistributedChannel.step] at hStep
    split at hStep
    · split at hStep <;> cases hStep
      exact .kept _
    · cases hStep
  | message i =>
    simp only [DistributedChannel.step] at hStep
    split at hStep
    · split at hStep <;> cases hStep
      exact .kept _
    · cases hStep
  | elapse ms =>
    cases hStep
    exact .kept _
  | join i info =>
    simp only [DistributedChannel.step] at hStep
    split at hStep
    · split at hStep <;> cases hStep
      · rw [stages, List.map_append]
        exact .joining _ info.clientId
      · exact .kept _
    · cases hStep
  | subscribe h =>
    simp only [DistributedChannel.step] at hStep
    split at hStep
    · rename_i j hSome
      obtain ⟨hHandle, hStage⟩ := DistributedChannel.handle_eq_some_iff.mp hSome
      obtain ⟨r, _, hNext⟩ := Option.map_eq_some_iff.mp hStep
      cases hNext
      exact .move _ hHandle (by rw [hStage]; rfl) (by rw [hStage]; rfl) rfl rfl
    · cases hStep
  | hset h =>
    obtain ⟨j, hHandle, hStage, hNext⟩ := DistributedChannel.map_handle_eq_some hStep
    cases hNext
    exact stages_set h _ ▸ .entered h j hHandle
  | publishJoined h =>
    obtain ⟨j, hHandle, hStage, hNext⟩ := DistributedChannel.map_handle_eq_some hStep
    cases hNext
    exact .move _ hHandle (by rw [hStage]; rfl) (by rw [hStage]; rfl) rfl rfl
  | hgetall h =>
    simp only [DistributedChannel.step] at hStep
    split at hStep
    · rename_i j hSome
      obtain ⟨hHandle, _⟩ := DistributedChannel.handle_eq_some_iff.mp hSome
      split at hStep <;> cases hStep
      exact .keep _ hHandle rfl rfl
    · cases hStep
  | recv h =>
    simp only [DistributedChannel.step] at hStep
    split at hStep
    · rename_i j hSome
      obtain ⟨hHandle, _⟩ := DistributedChannel.handle_eq_some_iff.mp hSome
      split at hStep
      · cases hStep
      · obtain ⟨r, _, hNext⟩ := Option.bind_eq_some_iff.mp hStep
        split at hNext <;> cases hNext
        · exact .keep _ hHandle rfl rfl
        · exact .keep _ hHandle rfl rfl
    · cases hStep
  | drop h =>
    obtain ⟨j, hHandle, hStage, hNext⟩ := DistributedChannel.map_handle_eq_some hStep
    cases hNext
    exact .move _ hHandle (by rw [hStage]; rfl) (by rw [hStage]; rfl) rfl rfl
  | leave h =>
    simp only [DistributedChannel.step] at hStep
    split at hStep
    · rename_i j hSome
      obtain ⟨hHandle, hStage⟩ := DistributedChannel.handle_eq_some_iff.mp hSome
      obtain ⟨r, _, hNext⟩ := Option.map_eq_some_iff.mp hStep
      cases hNext
      exact .move _ hHandle (by rw [hStage]; rfl) (by rw [hStage]; rfl) rfl rfl
    · cases hStep
  | publishLeft h =>
    obtain ⟨j, hHandle, hStage, hNext⟩ := DistributedChannel.map_handle_eq_some hStep
    cases hNext
    exact .move _ hHandle (by rw [hStage]; rfl) (by rw [hStage]; rfl) rfl rfl
  | hdel h =>
    obtain ⟨j, hHandle, hStage, hNext⟩ := DistributedChannel.map_handle_eq_some hStep
    cases hNext
    exact stages_set h _ ▸ .left h j hHandle hStage

/-! ### Any run -/

/-- Who has written to the hash is in it as seen, who is seen has a handle, and who has a record
has a handle that will delete it. -/
structure Traced (handles : List (Uuid × RoomStage)) (members : TreeMap Uuid ClientInfo)
    (lastSeen : TreeMap Uuid Nat) : Prop where
  seen : ∀ (h : HandleId) id stage, handles[h]? = some (id, stage) → stage.written → id ∈ lastSeen
  known : ∀ id ∈ lastSeen, ∃ (h : HandleId) (stage : RoomStage), handles[h]? = some (id, stage)
  held : ∀ id ∈ members, ∃ (h : HandleId) (stage : RoomStage), handles[h]? = some (id, stage) ∧ holding stage

section Traced

variable {handles : List (Uuid × RoomStage)} {members : TreeMap Uuid ClientInfo}
  {lastSeen : TreeMap Uuid Nat} {h : HandleId} {before after : RoomStage}

theorem Traced.new : Traced [] ∅ ∅ where
  seen h id stage hHandle := by cases hHandle
  known id hMem := by simp at hMem
  held id hMem := by simp at hMem

theorem Traced.refresh (hTraced : Traced handles members lastSeen)
    (hHandle : handles[h]? = some (id, before)) (time : Nat) :
    Traced handles members (lastSeen.insert id time) where
  seen g other stage hOther hWritten := TreeMap.mem_insert.mpr (.inr (hTraced.seen g other stage hOther hWritten))
  known other hMem := by
    obtain hEq | hOld := TreeMap.mem_insert.mp hMem
    · exact ⟨h, before, Std.compare_eq_iff_eq.mp hEq ▸ hHandle⟩
    · exact hTraced.known other hOld
  held := hTraced.held

theorem Traced.join (hTraced : Traced handles members lastSeen) (id : Uuid) :
    Traced (handles ++ [(id, RoomStage.joining)]) members lastSeen where
  seen h other stage hHandle hWritten := by
    obtain hOld | ⟨_, hNew⟩ := getElem?_snoc_iff.mp hHandle
    · exact hTraced.seen h other stage hOld hWritten
    · cases hNew
      cases hWritten
  known other hMem := by
    obtain ⟨h, stage, hHandle⟩ := hTraced.known other hMem
    exact ⟨h, stage, getElem?_snoc_iff.mpr (.inl hHandle)⟩
  held other hMem := by
    obtain ⟨h, stage, hHandle, hHolding⟩ := hTraced.held other hMem
    exact ⟨h, stage, getElem?_snoc_iff.mpr (.inl hHandle), hHolding⟩

/-- A handle moves on, and only the record of its client may change. -/
theorem Traced.move (hTraced : Traced handles members lastSeen)
    (hHandle : handles[h]? = some (id, before)) (hSeen : after.written → id ∈ lastSeen)
    {members' : TreeMap Uuid ClientInfo}
    (hOwn : id ∈ members' → holding after ∨ (id ∈ members ∧ holding after = holding before))
    (hOthers : ∀ other, other ≠ id → other ∈ members' → other ∈ members) :
    Traced (handles.set h (id, after)) members' lastSeen := by
  have hKept : ∀ {g : HandleId} {other stage}, handles[g]? = some (other, stage) →
      ∃ stage', (handles.set h (id, after))[g]? = some (other, stage') ∧
        (stage' = stage ∨ stage = before ∧ stage' = after) := by
    intro g other stage hOther
    by_cases hEq : g = h
    · subst hEq
      cases hHandle.symm.trans hOther
      exact ⟨after, getElem?_set_here hHandle, .inr ⟨rfl, rfl⟩⟩
    · exact ⟨stage, getElem?_set_there hHandle hEq hOther, .inl rfl⟩
  constructor
  · intro g other stage hOther hWritten
    obtain ⟨rfl, hEq⟩ | ⟨_, hOld⟩ := (getElem?_set_iff hHandle).mp hOther
    · cases hEq
      exact hSeen hWritten
    · exact hTraced.seen g other stage hOld hWritten
  · intro other hMem
    obtain ⟨g, stage, hOther⟩ := hTraced.known other hMem
    obtain ⟨stage', hNew, _⟩ := hKept hOther
    exact ⟨g, stage', hNew⟩
  · intro other hMem
    by_cases hEq : other = id
    · subst hEq
      obtain hHolding | ⟨hOld, hSame⟩ := hOwn hMem
      · exact ⟨h, after, getElem?_set_here hHandle, hHolding⟩
      · obtain ⟨g, stage, hOther, hHolding⟩ := hTraced.held other hOld
        obtain ⟨stage', hNew, rfl | ⟨rfl, rfl⟩⟩ := hKept hOther
        · exact ⟨g, stage', hNew, hHolding⟩
        · exact ⟨g, stage', hNew, hSame.trans hHolding⟩
    · obtain ⟨g, stage, hOther, hHolding⟩ := hTraced.held other (hOthers other hEq hMem)
      have hNe : g ≠ h := by
        rintro rfl
        cases hHandle.symm.trans hOther
        exact hEq rfl
      exact ⟨g, stage, getElem?_set_there hHandle hNe hOther, hHolding⟩

end Traced

theorem hsetMultiple_hset {h : HandleId} {j : RoomHandle} (hHandle : s.channel.handles[h]? = some j) :
    s.hsetMultiple (.hset h) = s.seen j := by
  rw [hsetMultiple, hHandle]
  rfl

variable (s) in
def Tracked : Prop := Traced (stages s.channel.handles) s.channel.members s.lastSeen

theorem Tracked.hsetMultiple (hTracked : s.Tracked) (e : DistributedChannel.Event) :
    Traced (stages s.channel.handles) s.channel.members (s.hsetMultiple e) := by
  cases e with
  | hset h =>
    cases hHandle : s.channel.handles[h]? with
    | none =>
      rw [MembersHash.hsetMultiple, hHandle]
      exact hTracked
    | some j =>
      rw [hsetMultiple_hset hHandle]
      exact hTracked.refresh (getElem?_stages hHandle) _
  | _ => exact hTracked

theorem Tracked.step (hTracked : s.Tracked) {e : Event} {o : List ChannelEvent}
    (hStep : s.step slots e = some (s', o)) : s'.Tracked := by
  cases e with
  | refreshMember h =>
    simp only [MembersHash.step] at hStep
    split at hStep
    · rename_i j hHandle
      split at hStep <;> cases hStep
      exact hTracked.refresh (getElem?_stages hHandle) _
    · cases hStep
  | channel e =>
    obtain ⟨⟨channel, o⟩, hChannel, hNext⟩ := Option.map_eq_some_iff.mp hStep
    cases hNext
    have hWritten := hTracked.hsetMultiple e
    have hEffect := step_effect hChannel
    show Traced (stages channel.handles) channel.members (s.hsetMultiple e)
    generalize stages channel.handles = handles, channel.members = members at hEffect ⊢
    cases hEffect with
    | kept => exact hWritten
    | joining _ id => exact hWritten.join id
    | moved _ h j stage hHandle hSame hHolding =>
      have hOld := getElem?_stages hHandle
      exact hWritten.move hOld (fun h => hWritten.seen _ _ _ hOld (hSame ▸ h))
        (fun hMem => .inr ⟨hMem, hHolding⟩) (fun _ _ hMem => hMem)
    | entered h j hHandle =>
      refine hWritten.move (getElem?_stages hHandle) (fun _ => ?_) (fun _ => .inl rfl) ?_
      · rw [hsetMultiple_hset hHandle]
        exact TreeMap.mem_insert_self
      · intro other hNe hMem
        exact (TreeMap.mem_insert.mp hMem).resolve_left fun hEq => hNe (Std.compare_eq_iff_eq.mp hEq).symm
    | left h j hHandle hStage =>
      have hOld := getElem?_stages hHandle
      refine hWritten.move hOld (fun _ => hWritten.seen _ _ _ hOld (by rw [hStage]; rfl)) ?_ ?_
      · exact fun hMem => absurd rfl ((TreeMap.mem_erase.mp hMem).1 <| Std.compare_eq_iff_eq.mpr ·)
      · exact fun other _ hMem => (TreeMap.mem_erase.mp hMem).2

theorem Tracked.of_run {es : List Event} {tr : List ChannelEvent}
    (hRun : Machine.run (MembersHash.step slots) .new es = some (s, tr)) : s.Tracked :=
  Machine.run_invariant (I := Tracked) (show Tracked .new from Traced.new)
    (fun _ _ _ _ hTracked h => hTracked.step h) hRun

/-- The steps of the channel alone, which take the channel where all the steps take it. -/
def channelEvents (es : List Event) : List DistributedChannel.Event :=
  es.filterMap fun
    | .channel e => some e
    | .refreshMember _ => none

theorem run_channel {es : List Event} {tr : List ChannelEvent}
    (hRun : Machine.run (step slots) s es = some (s', tr)) :
    Machine.run (DistributedChannel.step slots) s.channel (channelEvents es) = some (s'.channel, tr) := by
  induction es generalizing s tr with
  | nil =>
    cases hRun
    rfl
  | cons e es ih =>
    obtain ⟨s₁, o, tr₁, hStep, hRest, rfl⟩ := Machine.run_cons_iff.mp hRun
    cases e with
    | refreshMember h =>
      simp only [step] at hStep
      split at hStep
      · rename_i j _
        split at hStep <;> cases hStep
        exact ih (s := { s with lastSeen := s.seen j }) hRest
      · cases hStep
    | channel e =>
      obtain ⟨⟨channel, o⟩, hChannel, hNext⟩ := Option.map_eq_some_iff.mp hStep
      cases hNext
      exact Machine.run_cons_iff.mpr ⟨channel, o, tr₁, hChannel, ih hRest, rfl⟩

theorem mem_fields {f : Field} (hMem : f ∈ s.fields id) : f = .member id ∨ f = .lastSeen id := by
  have hClient : f.clientId = id := of_decide_eq_true (List.mem_filter.mp hMem).2
  cases f with
  | member other => exact .inl (congrArg Field.member hClient)
  | lastSeen other => exact .inr (congrArg Field.lastSeen hClient)

theorem hgetall_eq_nil_iff :
    s.hgetall = [] ↔ (∀ id, id ∉ s.channel.members) ∧ ∀ id, id ∉ s.lastSeen := by
  rw [← List.map_eq_nil_iff (f := Prod.fst), map_fst_hgetall, List.append_eq_nil_iff,
    List.map_eq_nil_iff, List.map_eq_nil_iff, List.eq_nil_iff_forall_not_mem,
    List.eq_nil_iff_forall_not_mem]
  simp only [TreeMap.mem_keys]

/-- In no run does a leave clear the hash: a client whose handles have all left has one field, which
says when it was last seen, and once all clients have left the hash is empty only if there was none. -/
theorem leave_keeps_last_seen {es : List Event} {tr : List ChannelEvent}
    (hRun : Machine.run (step slots) new es = some (s, tr)) :
    (∀ id, s.Departed id → s.fields id ≠ [] ∧ ∀ f, f ∈ s.fields id ↔ f = .lastSeen id) ∧
      ((∀ j ∈ s.channel.handles, j.stage = .left) → (s.hgetall = [] ↔ s.channel.handles = [])) := by
  have hTracked := Tracked.of_run hRun
  have hSeen : ∀ j ∈ s.channel.handles, j.stage = .left → j.info.clientId ∈ s.lastSeen := by
    intro j hMem hLeft
    obtain ⟨h, hHandle⟩ := List.mem_iff_getElem?.mp hMem
    exact hTracked.seen h _ _ (getElem?_stages hHandle) (by rw [hLeft]; rfl)
  have hHeld : ∀ id ∈ s.channel.members, ∃ j ∈ s.channel.handles, j.info.clientId = id ∧ j.stage ≠ .left := by
    intro id hMem
    obtain ⟨h, stage, hStage, hHolding⟩ := hTracked.held id hMem
    rw [stages, List.getElem?_map] at hStage
    obtain ⟨j, hHandle, hEq⟩ := Option.map_eq_some_iff.mp hStage
    cases hEq
    refine ⟨j, List.mem_of_getElem? hHandle, rfl, fun hLeft => ?_⟩
    rw [hLeft] at hHolding
    cases hHolding
  constructor
  · rintro id ⟨⟨j, hMem, rfl⟩, hLeft⟩
    have hField : Field.lastSeen j.info.clientId ∈ s.fields j.info.clientId :=
      lastSeen_mem_fields_iff.mpr (hSeen j hMem (hLeft j hMem rfl))
    refine ⟨List.ne_nil_of_mem hField, fun f => ⟨fun hOther => ?_, fun hEq => hEq ▸ hField⟩⟩
    obtain rfl | hEq := mem_fields hOther
    · obtain ⟨d, hHandle, hClient, hHere⟩ := hHeld _ (member_mem_fields_iff.mp hOther)
      exact absurd (hLeft d hHandle hClient) hHere
    · exact hEq
  · intro hLeft
    rw [hgetall_eq_nil_iff]
    constructor
    · rintro ⟨_, hUnseen⟩
      exact List.eq_nil_iff_forall_not_mem.mpr fun j hMem => hUnseen _ (hSeen j hMem (hLeft j hMem))
    · intro hNone
      refine ⟨fun id hMem => ?_, fun id hMem => ?_⟩
      · obtain ⟨j, hHandle, _⟩ := hHeld id hMem
        rw [hNone] at hHandle
        cases hHandle
      · obtain ⟨h, stage, hStage⟩ := hTracked.known id hMem
        rw [hNone] at hStage
        cases hStage

/-- Two clients, of which one comes and goes while the task of the other refreshes. -/
def comings : List Event :=
  [.channel .init, .channel (.join 0 ⟨1, 7, "a"⟩), .channel (.subscribe 0), .refreshMember 0,
    .channel (.hset 0), .channel (.join 0 ⟨2, 8, "b"⟩), .channel (.publishJoined 0),
    .channel (.drop 0), .refreshMember 0, .channel (.leave 0), .channel (.subscribe 1),
    .refreshMember 1, .channel (.publishLeft 0), .channel (.hdel 0)]

theorem leave_keeps_last_seen_comings :
    ∃ s tr, Machine.run (step 100) new comings = some (s, tr) ∧
      (∀ id, s.Departed id → s.fields id ≠ [] ∧ ∀ f, f ∈ s.fields id ↔ f = .lastSeen id) ∧
      ((∀ j ∈ s.channel.handles, j.stage = .left) → (s.hgetall = [] ↔ s.channel.handles = [])) := by
  have hRun : Machine.run (step 100) new comings = some (_, _) := rfl
  exact ⟨_, _, hRun, leave_keeps_last_seen hRun⟩

/-- After a client has come and gone alone, the hash still says when it was last seen. -/
theorem not_leave_clears :
    ¬ ∀ (slots : Nat) (es : List Event) (s : MembersHash) (tr : List ChannelEvent),
      Machine.run (step slots) new es = some (s, tr) →
        (∀ id, s.Departed id → s.fields id = []) ∧
          ((∀ j ∈ s.channel.handles, j.stage = .left) → s.hgetall = []) := by
  intro hAll
  have hRun : Machine.run (step 100) new [.channel .init, .channel (.join 0 ⟨1, 7, "a"⟩),
    .channel (.subscribe 0), .channel (.hset 0), .channel (.publishJoined 0), .channel (.drop 0),
    .channel (.leave 0), .channel (.publishLeft 0), .channel (.hdel 0)] = some (_, _) := rfl
  have hEmpty := (hAll 100 _ _ _ hRun).2 (by decide)
  cases hEmpty

end MembersHash

end Voices.Gateway
