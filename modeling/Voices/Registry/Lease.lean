import Voices.Registry.ChannelsImpl

/-!
# Leases of voice servers

A registration is a lease: until the time that it returned, the server keeps
its row and is found by every query; past that time no query finds it. The
queries agree with the promise because each of them compares with `last_seen`,
and `last_seen` is the time of the last registration.
-/

namespace Voices.Registry

open Semantics VoiceServer Std

namespace Database

theorem voiceServers_createOrUpdate (db : Database) (now : Instant) (id : Uuid) (hostUrl : String)
    (other : Uuid) :
    (db.createOrUpdate now id hostUrl).voiceServers[other]? =
      if id = other then
        some { hostUrl := (db.voiceServers[id]?.map VoiceServerDb.hostUrl).getD hostUrl,
               lastSeen := now }
      else db.voiceServers[other]? := by
  simp only [createOrUpdate, TreeMap.getElem?_insert, Std.compare_eq_iff_eq]
  cases db.voiceServers[id]? <;> rfl

theorem voiceServers_cleanupStale (db : Database) (now : Instant) (id : Uuid) :
    (db.cleanupStale now).voiceServers[id]? = db.voiceServers[id]?.filter fun v => !v.stale now := by
  rw [cleanupStale, TreeMap.getElem?_filter]
  cases hRow : db.voiceServers[id]? with
  | none => simp
  | some v => simp

theorem voiceServers_unassign (db : Database) (cid sid : Uuid) :
    (db.unassign cid sid).voiceServers = db.voiceServers := by
  rw [unassign]
  split <;> rfl

end Database

namespace ChannelsImpl

variable {s s' : ChannelsImpl} {e : Event} {o tr : List Reply} {es : List Event}

/-- What one call does to the rows of the voice servers. -/
theorem voiceServers_step (hStep : step s e = some (s', o)) :
    (∃ id hostUrl, e = .registerVoiceServer id hostUrl ∧
      s' = { s with db := s.db.createOrUpdate s.now id hostUrl } ∧
      o = [.registered id hostUrl (s.now + stalenessDuration)]) ∨
    (e = .cleanupStaleVoiceServers ∧ s' = { s with db := s.db.cleanupStale s.now } ∧
      o = [.deleted (s.db.staleIds s.now)]) ∨
    (s'.db.voiceServers = s.db.voiceServers ∧ s.now ≤ s'.now ∧
      ∀ id hostUrl v, .registered id hostUrl v ∉ o) := by
  cases e with
  | tick millis =>
    cases hStep
    exact .inr (.inr ⟨rfl, Nat.le_add_right _ _, by simp⟩)
  | createChannel cid =>
    rw [step, Option.ite_none_left_eq_some] at hStep
    cases hStep.2
    exact .inr (.inr ⟨rfl, le_rfl, by simp⟩)
  | registerVoiceServer id hostUrl =>
    cases hStep
    exact .inl ⟨id, hostUrl, rfl, rfl, rfl⟩
  | cleanupStaleVoiceServers =>
    cases hStep
    exact .inr (.inl ⟨rfl, rfl, rfl⟩)
  | getChannel cid =>
    cases hStep
    exact .inr (.inr ⟨rfl, le_rfl, by simp⟩)
  | assignChannel cid reassign pick =>
    obtain ⟨⟨db, result⟩, hAssign, hEq⟩ := Option.map_eq_some_iff.mp hStep
    cases hEq
    refine .inr (.inr ⟨?_, le_rfl, by simp⟩)
    obtain ⟨v, _, _, rfl, _⟩ | ⟨rfl, _⟩ := assignChannel_cases hAssign
    · exact Database.voiceServers_doAssignTo _ _ _ _
    · rfl
  | unassignChannel sid cid =>
    cases hStep
    exact .inr (.inr ⟨Database.voiceServers_unassign _ _ _, le_rfl, by simp⟩)

/-- The registration of `id` that a reply answers. -/
def Reply.registration (id : Uuid) : Reply → Option (String × Instant)
  | .registered other hostUrl validUntil => if other = id then some (hostUrl, validUntil) else none
  | _ => none

def lastRegistration (id : Uuid) (tr : List Reply) : Option (String × Instant) :=
  (tr.filterMap (Reply.registration id)).getLast?

theorem lastRegistration_snoc (id : Uuid) (tr : List Reply) (reply : Reply) :
    lastRegistration id (tr ++ [reply]) = (reply.registration id).or (lastRegistration id tr) := by
  cases hReply : reply.registration id with
  | none => simp [lastRegistration, hReply]
  | some r => simp [lastRegistration, hReply]

theorem lastRegistration_append {id : Uuid} (h : ∀ hostUrl v, .registered id hostUrl v ∉ o) :
    lastRegistration id (tr ++ o) = lastRegistration id tr := by
  have hNil : o.filterMap (Reply.registration id) = [] := by
    rw [List.filterMap_eq_nil_iff]
    intro reply hMem
    cases reply with
    | registered other hostUrl v =>
      rw [Reply.registration, if_neg]
      rintro rfl
      exact h hostUrl v hMem
    | _ => rfl
  rw [lastRegistration, List.filterMap_append, hNil, List.append_nil, lastRegistration]

/-- Every row is as old as the last registration of its server, and every
lease has a row that lasts as long, or is over. -/
structure Leased (s : ChannelsImpl) (tr : List Reply) : Prop where
  row : ∀ id v, s.db.voiceServers[id]? = some v →
    ∃ hostUrl, lastRegistration id tr = some (hostUrl, v.lastSeen + stalenessDuration)
  bounded : ∀ id hostUrl validUntil, .registered id hostUrl validUntil ∈ tr →
    validUntil ≤ s.now + stalenessDuration
  held : ∀ id hostUrl validUntil, .registered id hostUrl validUntil ∈ tr → s.now < validUntil →
    ∃ v, s.db.voiceServers[id]? = some v ∧ validUntil ≤ v.lastSeen + stalenessDuration

theorem leased_step (hLeased : Leased s tr) (hStep : step s e = some (s', o)) :
    Leased s' (tr ++ o) := by
  obtain ⟨id, hostUrl, rfl, rfl, rfl⟩ | ⟨rfl, rfl, rfl⟩ | ⟨hRows, hNow, hNone⟩ :=
    voiceServers_step hStep
  · refine ⟨fun other v hRow => ?_, fun other url validUntil hMem => ?_,
      fun other url validUntil hMem hBefore => ?_⟩
    · rw [Database.voiceServers_createOrUpdate] at hRow
      rw [lastRegistration_snoc, Reply.registration]
      by_cases hEq : id = other
      · rw [if_pos hEq] at hRow
        cases hRow
        rw [if_pos hEq]
        exact ⟨_, rfl⟩
      · rw [if_neg hEq] at hRow
        rw [if_neg hEq]
        exact hLeased.row other v hRow
    · rcases List.mem_append.mp hMem with hEarlier | hLast
      · exact hLeased.bounded other url validUntil hEarlier
      · cases List.mem_singleton.mp hLast
        exact le_rfl
    · rw [Database.voiceServers_createOrUpdate]
      by_cases hEq : id = other
      · rw [if_pos hEq]
        refine ⟨_, rfl, ?_⟩
        rcases List.mem_append.mp hMem with hEarlier | hLast
        · exact hLeased.bounded other url validUntil hEarlier
        · cases List.mem_singleton.mp hLast
          exact le_rfl
      · rw [if_neg hEq]
        rcases List.mem_append.mp hMem with hEarlier | hLast
        · exact hLeased.held other url validUntil hEarlier hBefore
        · cases List.mem_singleton.mp hLast
          exact absurd rfl hEq
  · have hNone : ∀ id hostUrl v, .registered id hostUrl v ∉ [Reply.deleted (s.db.staleIds s.now)] := by
      simp
    refine ⟨fun id v hRow => ?_, fun id url validUntil hMem => ?_,
      fun id url validUntil hMem hBefore => ?_⟩
    · rw [Database.voiceServers_cleanupStale, Option.filter_eq_some_iff] at hRow
      rw [lastRegistration_append (hNone id)]
      exact hLeased.row id v hRow.1
    · exact hLeased.bounded id url validUntil ((List.mem_append.mp hMem).resolve_right (hNone _ _ _))
    · obtain ⟨v, hRow, hLe⟩ :=
        hLeased.held id url validUntil ((List.mem_append.mp hMem).resolve_right (hNone _ _ _)) hBefore
      refine ⟨v, ?_, hLe⟩
      have hFresh : ¬ v.lastSeen + stalenessDuration < s.now :=
        Nat.not_lt.mpr (Nat.le_trans (Nat.le_of_lt hBefore) hLe)
      rw [Database.voiceServers_cleanupStale, hRow]
      simp [VoiceServerDb.stale, hFresh]
  · refine ⟨fun id v hRow => ?_, fun id url validUntil hMem => ?_,
      fun id url validUntil hMem hBefore => ?_⟩
    · rw [lastRegistration_append (hNone id)]
      exact hLeased.row id v (hRows ▸ hRow)
    · exact Nat.le_trans
        (hLeased.bounded id url validUntil ((List.mem_append.mp hMem).resolve_right (hNone _ _ _)))
        (Nat.add_le_add_right hNow _)
    · rw [hRows]
      exact hLeased.held id url validUntil ((List.mem_append.mp hMem).resolve_right (hNone _ _ _))
        (Nat.lt_of_le_of_lt hNow hBefore)

theorem leased_of_run (hRun : Machine.run step new es = some (s, tr)) : Leased s tr := by
  refine Machine.run_induction (P := Leased) ⟨?_, ?_, ?_⟩
    (fun _ _ _ _ _ hLeased hStep => leased_step hLeased hStep) hRun
  · intro id v hRow
    simp [new, Database.empty] at hRow
  · intro id hostUrl validUntil hMem
    cases hMem
  · intro id hostUrl validUntil hMem
    cases hMem

/-- At this time the registry keeps the server, resolves its channels and may assign it others: it is
the one that `assign_channel` answers when no candidate has less load. -/
structure Served (s : ChannelsImpl) (id : Uuid) : Prop where
  notDeleted : id ∉ s.db.staleIds s.now
  kept : ∃ v, (s.db.cleanupStale s.now).voiceServers[id]? = some v
  resolved : ∀ cid, s.db.assignedTo cid = some id →
    ∃ host, ChannelsImpl.getChannel s.db s.now cid = some (some host)
  candidate : id ∈ s.db.candidates s.now
  assigned : ∀ cid reassign, (∀ other ∈ s.db.candidates s.now, s.db.load id ≤ s.db.load other) →
    ∃ db srv, ChannelsImpl.assignChannel s.db s.now cid reassign id = some (db, .ok srv) ∧ srv.id = id

/-- At this time the registry neither assigns the server nor resolves a channel to it. -/
structure Lapsed (s : ChannelsImpl) (id : Uuid) : Prop where
  unresolved : ∀ cid, s.db.assignedTo cid = some id →
    ChannelsImpl.getChannel s.db s.now cid = some none
  unassigned : ∀ cid reassign pick db srv,
    ChannelsImpl.assignChannel s.db s.now cid reassign pick = some (db, .ok srv) → srv.id ≠ id

theorem getActive_eq_some_of_row {db : Database} {now : Instant} {id : Uuid} {v : VoiceServerDb}
    (hRow : db.voiceServers[id]? = some v) (hActive : now < v.lastSeen + stalenessDuration) :
    db.getActive now id = some v := by
  rw [Database.getActive, hRow]
  simp [VoiceServerDb.active, hActive]

theorem served_of_row {id : Uuid} {v : VoiceServerDb} (hRow : s.db.voiceServers[id]? = some v)
    (hActive : s.now < v.lastSeen + stalenessDuration) : Served s id := by
  have hGet : s.db.getActive s.now id = some v := getActive_eq_some_of_row hRow hActive
  have hFresh : v.stale s.now = false :=
    decide_eq_false (Nat.not_lt.mpr (Nat.le_of_lt hActive))
  have hCandidate : id ∈ s.db.candidates s.now := by
    rw [Database.mem_candidates, hGet, Option.isSome_some]
  refine ⟨?_, ⟨v, ?_⟩, ?_, hCandidate, ?_⟩
  · rw [Database.mem_staleIds, Database.isStale, hRow]
    simp [hFresh]
  · rw [Database.voiceServers_cleanupStale, hRow]
    simp [hFresh]
  · intro cid hAssigned
    exact ⟨v.hostUrl, by rw [getChannel_of_assignedTo hAssigned, hGet, Option.map_some]⟩
  · intro cid reassign hLeast
    have hPick : s.db.isSmallestLoad s.now id = true := Database.isSmallestLoad_iff.mpr ⟨hCandidate, hLeast⟩
    exact ⟨_, _, assignChannel_of_pick hPick hRow, rfl⟩

theorem lapsed_of_inactive {id : Uuid} (hInactive : s.db.getActive s.now id = none) : Lapsed s id := by
  refine ⟨?_, ?_⟩
  · intro cid hAssigned
    rw [getChannel_of_assignedTo hAssigned, hInactive, Option.map_none]
  · intro cid reassign pick db srv hAssign hEq
    obtain ⟨v, hPick, _, _, rfl⟩ := assignChannel_eq_ok hAssign
    have hCandidate : pick ∈ s.db.candidates s.now := (Database.isSmallestLoad_iff.mp hPick).1
    rw [Database.mem_candidates, show pick = id from hEq, hInactive] at hCandidate
    cases hCandidate

theorem getActive_eq_none_of_lastRegistration {id : Uuid} {hostUrl : String} {validUntil : Instant}
    (hLeased : Leased s tr) (hLast : lastRegistration id tr = some (hostUrl, validUntil))
    (hOver : validUntil < s.now) : s.db.getActive s.now id = none := by
  rw [Database.getActive]
  cases hRow : s.db.voiceServers[id]? with
  | none => rfl
  | some v =>
    obtain ⟨_, hEq⟩ := hLeased.row id v hRow
    cases hLast.symm.trans hEq
    simp only [Option.filter_some, VoiceServerDb.active, decide_eq_true_eq,
      ite_eq_right_iff]
    exact fun hActive => absurd hActive (Nat.not_lt.mpr (Nat.le_of_lt hOver))

/-- `assigned_to` references a row of `voice_servers`. -/
def References (s : ChannelsImpl) : Prop :=
  ∀ cid id, s.db.assignedTo cid = some id → ∃ v, s.db.voiceServers[id]? = some v

theorem references_step (hRefs : References s) (hStep : step s e = some (s', o)) : References s' := by
  intro cid id hAssigned
  cases e with
  | tick millis =>
    cases hStep
    exact hRefs cid id hAssigned
  | createChannel other =>
    rw [step, Option.ite_none_left_eq_some] at hStep
    cases hStep.2
    rw [Database.createChannel, Database.assignedTo_setAssigned] at hAssigned
    split at hAssigned
    · cases hAssigned
    · exact hRefs cid id hAssigned
  | registerVoiceServer other hostUrl =>
    cases hStep
    rw [Database.voiceServers_createOrUpdate]
    split
    · exact ⟨_, rfl⟩
    · exact hRefs cid id hAssigned
  | cleanupStaleVoiceServers =>
    cases hStep
    rw [Database.assignedTo_cleanupStale, Option.filter_eq_some_iff] at hAssigned
    obtain ⟨v, hRow⟩ := hRefs cid id hAssigned.1
    refine ⟨v, ?_⟩
    rw [Database.voiceServers_cleanupStale, hRow, Option.filter_some, if_pos]
    simpa [Database.isStale, hRow] using hAssigned.2
  | getChannel other =>
    cases hStep
    exact hRefs cid id hAssigned
  | assignChannel other reassign pick =>
    obtain ⟨⟨db, result⟩, hAssign, hEq⟩ := Option.map_eq_some_iff.mp hStep
    cases hEq
    obtain ⟨v, _, hRow, rfl, _⟩ | ⟨rfl, _⟩ := assignChannel_cases hAssign
    · rw [Database.voiceServers_doAssignTo]
      rw [Database.doAssignTo_fst] at hAssigned
      split at hAssigned
      · rcases Database.assignedTo_assign s.db other pick cid with hSame | ⟨_, hNew⟩
        · exact hRefs cid id (hSame ▸ hAssigned)
        · cases hNew.symm.trans hAssigned
          exact ⟨v, hRow⟩
      · exact hRefs cid id hAssigned
    · exact hRefs cid id hAssigned
  | unassignChannel sid other =>
    cases hStep
    rw [Database.voiceServers_unassign]
    rw [Database.assignedTo_unassign] at hAssigned
    split at hAssigned
    · cases hAssigned
    · exact hRefs cid id hAssigned

theorem references_of_run (hRun : Machine.run step new es = some (s, tr)) : References s := by
  refine Machine.run_invariant (I := References) ?_
    (fun _ _ _ _ hRefs hStep => references_step hRefs hStep) hRun
  intro cid id hAssigned
  simp [new, Database.empty, Database.assignedTo] at hAssigned

/-- A row that was deleted is not there before the next registration. -/
theorem absent_of_run {id : Uuid} (hRun : Machine.run step s es = some (s', tr))
    (hAbsent : s.db.voiceServers[id]? = none) (hNone : ∀ hostUrl v, .registered id hostUrl v ∉ tr) :
    s'.db.voiceServers[id]? = none := by
  revert hNone
  refine Machine.run_induction
    (P := fun s tr => (∀ hostUrl v, .registered id hostUrl v ∉ tr) → s.db.voiceServers[id]? = none)
    (fun _ => hAbsent) ?_ hRun
  intro s₁ tr₁ e s₂ o ih hStep hNone
  have hRow : s₁.db.voiceServers[id]? = none :=
    ih fun hostUrl v hMem => hNone hostUrl v (List.mem_append_left _ hMem)
  obtain ⟨other, hostUrl, rfl, rfl, rfl⟩ | ⟨rfl, rfl, rfl⟩ | ⟨hRows, _, _⟩ := voiceServers_step hStep
  · have hNe : other ≠ id := by
      rintro rfl
      exact hNone _ _ (List.mem_append_right _ (List.mem_singleton.mpr rfl))
    rw [Database.voiceServers_createOrUpdate, if_neg hNe, hRow]
  · rw [Database.voiceServers_cleanupStale, hRow, Option.filter_none]
  · rw [hRows, hRow]

/-- A registration is honoured until the time that it returned, and past it
the server is not found before the next registration. A cleanup that deletes
a server leaves no channel assigned to it. -/
theorem lease_honoured (hRun : Machine.run step new es = some (s, tr)) (id : Uuid) :
    (∀ hostUrl validUntil, .registered id hostUrl validUntil ∈ tr → s.now < validUntil →
      Served s id) ∧
    (∀ hostUrl validUntil, lastRegistration id tr = some (hostUrl, validUntil) →
      validUntil < s.now → Lapsed s id) ∧
    (∀ s₁ ids, step s .cleanupStaleVoiceServers = some (s₁, [.deleted ids]) → id ∈ ids →
      ∀ fs s₂ tr₂, Machine.run step s₁ fs = some (s₂, tr₂) →
        (∀ hostUrl v, .registered id hostUrl v ∉ tr₂) → ∀ cid, s₂.db.assignedTo cid ≠ some id) := by
  have hLeased : Leased s tr := leased_of_run hRun
  refine ⟨?_, ?_, ?_⟩
  · intro hostUrl validUntil hMem hBefore
    obtain ⟨v, hRow, hLe⟩ := hLeased.held id hostUrl validUntil hMem hBefore
    exact served_of_row hRow (Nat.lt_of_lt_of_le hBefore hLe)
  · intro hostUrl validUntil hLast hOver
    exact lapsed_of_inactive (getActive_eq_none_of_lastRegistration hLeased hLast hOver)
  · intro s₁ ids hStep hMem fs s₂ tr₂ hRest hNone cid hAssigned
    have hWhole : Machine.run step new (es ++ Event.cleanupStaleVoiceServers :: fs) =
        some (s₂, tr ++ ([Reply.deleted ids] ++ tr₂)) :=
      Machine.run_append_iff.mpr ⟨s, tr, _, hRun,
        Machine.run_cons_iff.mpr ⟨s₁, _, tr₂, hStep, hRest, rfl⟩, rfl⟩
    obtain ⟨v, hRow⟩ := references_of_run hWhole cid id hAssigned
    have hAbsent : s₁.db.voiceServers[id]? = none := by
      cases hStep
      rw [Database.mem_staleIds, Database.isStale] at hMem
      rw [Database.voiceServers_cleanupStale]
      cases hOld : s.db.voiceServers[id]? with
      | none => rfl
      | some old =>
        rw [hOld] at hMem
        simp [hMem]
    rw [absent_of_run hRest hAbsent hNone] at hRow
    cases hRow

/-- A server registers at time 0 and another one 20 s later. After 40 s the first lease is over. -/
def twoLeases : List Event :=
  [.createChannel 7, .createChannel 8, .registerVoiceServer 1 "http://a/", .assignChannel 7 false 1,
    .tick 20000, .registerVoiceServer 2 "http://b/", .assignChannel 8 false 2, .tick 20000]

theorem lease_honoured_of_twoLeases :
    ∃ s tr s₁, Machine.run step new twoLeases = some (s, tr) ∧ Served s 2 ∧ Lapsed s 1 ∧
      step s .cleanupStaleVoiceServers = some (s₁, [.deleted [1]]) ∧ ∀ cid, s₁.db.assignedTo cid ≠ some 1 := by
  have hRun : Machine.run step new twoLeases = some (_, _) := rfl
  obtain ⟨hServed, _, _⟩ := lease_honoured hRun 2
  obtain ⟨_, hLapsed, hDeleted⟩ := lease_honoured hRun 1
  refine ⟨_, _, _, hRun, hServed "http://b/" 55000 (.tail _ (.tail _ (.head _))) (by decide),
    hLapsed "http://a/" 35000 rfl (by decide), rfl, ?_⟩
  exact hDeleted _ [1] rfl (.head _) [] _ [] rfl (by simp)

end ChannelsImpl

end Voices.Registry
