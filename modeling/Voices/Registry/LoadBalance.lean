import Voices.Registry.ChannelsImpl
import Voices.Registry.Hosting
import Voices.Semantics.Balance

/-!
# The load of the voice servers

`assign_channel` picks an active voice server with the least load and assigns the channel later, when other
calls may have picked the same one. With `d` calls at a time in between, no active voice server has over `d`
channels more than another, unless one becomes active with another load or cannot spare what it loses.
-/

namespace Voices.Registry

open Semantics VoiceServer Std Balance

namespace Database

variable {db : Database}

theorem load_eq_share (db : Database) (id : Uuid) :
    db.load id = share db.channels fun c => c.assignedTo == some id :=
  List.countP_eq_length_filter.symm

theorem any_assignedTo (cid id : Uuid) :
    db.channels[cid]?.any (fun c => c.assignedTo == some id) = true ↔ db.assignedTo cid = some id := by
  rw [assignedTo]
  cases db.channels[cid]? with
  | none => simp
  | some c => simp

theorem load_setAssigned (db : Database) (cid : Uuid) (assigned : Option Uuid) (id : Uuid) :
    (db.setAssigned cid assigned).load id + (if db.assignedTo cid = some id then 1 else 0) =
      db.load id + if assigned = some id then 1 else 0 := by
  have hShare := share_insert (m := db.channels) (k := cid) (v := (⟨assigned⟩ : ChannelDb))
    (p := fun c => c.assignedTo == some id)
  rw [load_eq_share, load_eq_share, setAssigned]
  simpa only [any_assignedTo, beq_iff_eq] using hShare

theorem load_cleanupStale {now : Instant} {id : Uuid} (hFresh : db.isStale now id = false) :
    (db.cleanupStale now).load id = db.load id := by
  rw [load_eq_share, load_eq_share, share, share, cleanupStale, TreeMap.toList_map, List.countP_map]
  refine List.countP_congr fun row _ => ?_
  simp only [Function.comp_apply, beq_iff_eq, Option.filter_eq_some_iff]
  constructor
  · exact fun h => h.1
  · exact fun h => ⟨h, by simp [hFresh]⟩

theorem candidate_iff {now : Instant} {id : Uuid} :
    id ∈ db.candidates now ↔ ∃ v, db.voiceServers[id]? = some v ∧ v.active now = true := by
  rw [mem_candidates, Option.isSome_iff_exists]
  simp only [getActive, Option.filter_eq_some_iff]

theorem isStale_of_candidate {now : Instant} {id : Uuid} (h : id ∈ db.candidates now) :
    db.isStale now id = false := by
  obtain ⟨v, hRow, hNow⟩ := candidate_iff.mp h
  have hLt : now < v.lastSeen + stalenessDuration := of_decide_eq_true hNow
  simp only [isStale, hRow, VoiceServerDb.stale, decide_eq_false_iff_not]
  exact Nat.lt_asymm hLt

theorem candidates_ticked {now : Instant} (millis : Nat) {id : Uuid}
    (h : id ∈ db.candidates (now + millis)) : id ∈ db.candidates now := by
  obtain ⟨v, hRow, hNow⟩ := candidate_iff.mp h
  have hLt : now + millis < v.lastSeen + stalenessDuration := of_decide_eq_true hNow
  have hBefore : now < v.lastSeen + stalenessDuration := Nat.lt_of_le_of_lt (Nat.le_add_right now millis) hLt
  exact candidate_iff.mpr ⟨v, hRow, decide_eq_true hBefore⟩

theorem candidates_registered {now : Instant} {id j : Uuid} {hostUrl : String}
    (h : j ∈ (db.createOrUpdate now id hostUrl).candidates now) : j = id ∨ j ∈ db.candidates now := by
  by_cases hEq : id = j
  · exact .inl hEq.symm
  · obtain ⟨v, hRow, hNow⟩ := candidate_iff.mp h
    rw [createOrUpdate, TreeMap.getElem?_insert, if_neg (by simpa using hEq)] at hRow
    exact .inr (candidate_iff.mpr ⟨v, hRow, hNow⟩)

theorem candidates_cleaned {now : Instant} {j : Uuid}
    (h : j ∈ (db.cleanupStale now).candidates now) : j ∈ db.candidates now := by
  obtain ⟨v, hKept, hNow⟩ := candidate_iff.mp h
  rw [cleanupStale, TreeMap.getElem?_filter'] at hKept
  exact candidate_iff.mpr ⟨v, (Option.filter_eq_some_iff.mp hKept).1, hNow⟩

theorem nodup_candidates (db : Database) (now : Instant) : (db.candidates now).Nodup := by
  refine List.Pairwise.map _ ?_ (TreeMap.distinct_keys_toList.filter _)
  intro row row' hKeys hEq
  exact hKeys (by rw [hEq, compare_self])

/-- Together the servers host no more channels than there are. -/
theorem sum_load_le (db : Database) {ids : List Uuid} (hNodup : ids.Nodup) :
    (ids.map db.load).sum ≤ db.channels.size := by
  rw [← TreeMap.length_toList]
  refine Nat.le_trans (Nat.le_of_eq ?_) (sum_countP_le (fun row => row.2.assignedTo) _ hNodup)
  exact congrArg List.sum (List.map_congr_left fun id _ => db.load_eq_share id)

end Database

/-- The voice server that the call has picked and may yet assign. -/
def Call.books (call : Call) : Option Uuid :=
  match call.phase with
  | .assignTo server _ => some server
  | .update server _ => some server
  | _ => none

namespace Hosting

abbrev active (s : Hosting) : List Uuid := s.db.candidates s.now

abbrev load (s : Hosting) (id : Uuid) : Nat := s.db.load id

def bookings (s : Hosting) : List Uuid := s.calls.filterMap Call.books

def booked (s : Hosting) (id : Uuid) : Nat := s.load id + s.bookings.count id

structure Balanced (d : Nat) (s : Hosting) : Prop where
  few : s.bookings.length ≤ d
  within : Within d s.active s.booked s.load

/-- The call is about to pick a voice server. -/
def picks (s : Hosting) (k : Nat) : Bool := s.calls[k]?.any fun call => call.phase = .smallestLoad

/-- The voice server that loses a channel, to another one or to none. -/
def taken (s : Hosting) : Event → Option Uuid
  | .query k _ =>
    s.calls[k]?.bind fun call => call.writes.bind fun server =>
      if s.db.voiceServers.contains server then (s.db.assignedTo call.channelId).filter (· ≠ server)
      else none
  | .unassign sid n =>
    s.servers[sid]?.bind fun v => v.unassigning[n]?.bind fun cid => (s.db.assignedTo cid).filter (· = sid)
  | _ => none

/-- The voice server has about the load of each active one. -/
def Near (d : Nat) (s : Hosting) (sid : Uuid) : Prop :=
  ∀ j ∈ s.active, s.booked sid ≤ s.load j + d ∧ s.booked j ≤ s.load sid + d

/-- The voice server does not have the least channels by `d`. -/
def Spare (d : Nat) (s : Hosting) (sid : Uuid) : Prop :=
  sid ∈ s.active → ∀ i ∈ s.active, s.booked i < s.load sid + d

/-- Fewer than `d` voice servers are booked when a call picks one, a voice server becomes active with about
the load of the others, and a channel is taken only from one that can spare it. -/
def Steady (d : Nat) (s : Hosting) : Event → Prop
  | .heartbeat sid => sid ∉ s.active → s.Near d sid
  | .query k pick => (s.picks k = true → s.bookings.length < d) ∧
      ∀ sid ∈ s.taken (.query k pick), s.Spare d sid
  | .unassign sid n => ∀ old ∈ s.taken (.unassign sid n), s.Spare d old
  | _ => True

instance decidableNear (d : Nat) (s : Hosting) (sid : Uuid) : Decidable (s.Near d sid) :=
  List.decidableBAll _ _

instance decidableSpare (d : Nat) (s : Hosting) (sid : Uuid) : Decidable (s.Spare d sid) :=
  have : Decidable (∀ i ∈ s.active, s.booked i < s.load sid + d) := List.decidableBAll _ _
  inferInstanceAs (Decidable (sid ∈ s.active → ∀ i ∈ s.active, s.booked i < s.load sid + d))

instance decidableSteady (d : Nat) (s : Hosting) : (e : Event) → Decidable (s.Steady d e)
  | .heartbeat sid => inferInstanceAs (Decidable (sid ∉ s.active → s.Near d sid))
  | .query k pick =>
    have : Decidable (∀ sid ∈ s.taken (.query k pick), s.Spare d sid) := Option.decidableForallMem _
    inferInstanceAs (Decidable ((s.picks k = true → s.bookings.length < d) ∧
      ∀ sid ∈ s.taken (.query k pick), s.Spare d sid))
  | .unassign sid n => Option.decidableForallMem (p := s.Spare d) (s.taken (.unassign sid n))
  | .tick _ | .createChannel _ | .serve _ _ | .cleanupStale | .call _ | .reassign _ _ | .request _ _ _
  | .fail _ | .leaving _ _ | .notified _ _ | .aborted _ _ | .cleanup _ => isTrue trivial

section Steps

variable {d : Nat} {s s' : Hosting} {e : Event} {k : Nat} {call : Call} {phase : Phase}

theorem Balanced.kept (h : Balanced d s) (hBookings : s'.bookings.Subperm s.bookings)
    (hActive : ∀ id ∈ s'.active, id ∈ s.active) (hLoad : ∀ id ∈ s'.active, s'.load id = s.load id) :
    Balanced d s' where
  few := Nat.le_trans hBookings.length_le h.few
  within := by
    refine h.within.mono hActive (fun id hMem => ?_) fun id hMem => Nat.le_of_eq (hLoad id hMem).symm
    rw [booked, booked, hLoad id hMem]
    exact Nat.add_le_add_left (hBookings.count_le id) _

theorem bookings_set (hCall : s.calls[k]? = some call)
    (hPhase : ∀ id, { call with phase }.books = some id → call.books = some id) :
    (s.setPhase k call phase).bookings.Subperm s.bookings := by
  have hPerm := filterMap_set_perm (f := Call.books) hCall { call with phase }
  cases hBooks : { call with phase }.books with
  | none =>
    rw [hBooks, Option.toList_none, List.nil_append] at hPerm
    exact (List.sublist_append_right _ _).subperm.trans hPerm.subperm
  | some id =>
    rw [hBooks, hPhase id hBooks] at hPerm
    exact ((List.perm_append_left_iff _).mp hPerm).subperm

/-- The call goes on, and nothing of the registry changes. -/
theorem Balanced.phased (h : Balanced d s) (hCall : s.calls[k]? = some call)
    (hPhase : ∀ id, { call with phase }.books = some id → call.books = some id)
    (hDb : s'.db = s.db) (hNow : s'.now = s.now) (hCalls : s'.calls = s.calls.set k { call with phase }) :
    Balanced d s' := by
  refine h.kept ?_ (fun id hMem => ?_) fun id _ => by rw [load, load, hDb]
  · rw [bookings, hCalls]
    exact bookings_set hCall hPhase
  · rwa [active, hDb, hNow] at hMem

theorem Balanced.called (h : Balanced d s) (cid : Uuid) (reassign : Bool) :
    Balanced d { s with calls := s.calls ++ [⟨cid, reassign, .getChannel⟩] } := by
  refine h.kept ?_ (fun _ hMem => hMem) fun _ _ => rfl
  rw [bookings, List.filterMap_append]
  exact (List.Perm.of_eq (List.append_nil _)).subperm

theorem Balanced.heartbeat (h : Balanced d s) {sid : Uuid} {url : String}
    (hSteady : Steady d s (.heartbeat sid)) :
    Balanced d { s with db := s.db.createOrUpdate s.now sid url } := by
  by_cases hActive : sid ∈ s.active
  · refine h.kept (List.Subperm.refl _) (fun j hMem => ?_) fun _ _ => rfl
    rcases Database.candidates_registered hMem with rfl | hMem
    · exact hActive
    · exact hMem
  · have hOwn : s.booked sid ≤ s.load sid + d :=
      Nat.add_le_add_left (Nat.le_trans List.count_le_length h.few) _
    exact ⟨h.few, h.within.join (fun _ => Database.candidates_registered) hOwn (hSteady hActive)⟩

theorem Balanced.createChannel (h : Balanced d s) {cid : Uuid}
    (hAbsent : ¬ s.db.channels.contains cid = true) :
    Balanced d { s with db := s.db.createChannel cid } := by
  have hNone : s.db.assignedTo cid = none := by
    rw [Database.assignedTo, TreeMap.getElem?_eq_none hAbsent]
    rfl
  refine h.kept (List.Subperm.refl _) (fun _ hMem => hMem) fun id _ => ?_
  have hLoad := s.db.load_setAssigned cid none id
  rwa [hNone] at hLoad

theorem Balanced.cleanupStale (h : Balanced d s) : Balanced d { s with db := s.db.cleanupStale s.now } := by
  refine h.kept (List.Subperm.refl _) (fun _ => Database.candidates_cleaned) fun id hMem => ?_
  exact Database.load_cleanupStale (Database.isStale_of_candidate (Database.candidates_cleaned hMem))

theorem Balanced.unassign (h : Balanced d s) {sid cid : Uuid}
    (hSpare : s.db.assignedTo cid = some sid → s.Spare d sid) :
    Balanced d { s with db := s.db.unassign cid sid } := by
  unfold Database.unassign
  split
  · rename_i hOld
    have hLoad : ∀ j, (s.db.setAssigned cid none).load j + (if sid = j then 1 else 0) = s.load j := by
      intro j
      simpa [hOld] using s.db.load_setAssigned cid none j
    refine ⟨h.few, h.within.release (hSpare hOld) (fun i => ?_) fun j => Nat.le_of_eq (hLoad j).symm⟩
    exact Nat.add_le_add_right (Nat.le.intro (hLoad i)) _
  · exact h

theorem Balanced.pick (h : Balanced d s) {pick : Uuid} {host : String} (hCall : s.calls[k]? = some call)
    (hPhase : call.phase = .smallestLoad) (hPick : s.db.isSmallestLoad s.now pick = true)
    (hRoom : s.bookings.length < d) : Balanced d (s.setPhase k call (.assignTo pick host)) := by
  have hBooks : call.books = none := by
    rw [Call.books, hPhase]
  have hPerm : (s.setPhase k call (.assignTo pick host)).bookings.Perm (pick :: s.bookings) := by
    have hPerm := filterMap_set_perm (f := Call.books) hCall { call with phase := .assignTo pick host }
    rwa [hBooks] at hPerm
  refine ⟨Nat.le_trans (Nat.le_of_eq hPerm.length_eq) hRoom, ?_⟩
  refine h.within.book (Database.isSmallestLoad_iff.mp hPick).2 ?_ fun i _ hNe => ?_
  · refine Nat.add_le_add_left (Nat.le_trans List.count_le_length ?_) _
    exact Nat.le_trans (Nat.le_of_eq hPerm.length_eq) hRoom
  · rw [booked, booked, hPerm.count_eq, List.count_cons_of_ne (Ne.symm hNe)]
    exact Nat.le_refl _

theorem Balanced.assign (h : Balanced d s) {server : Uuid} {host : String} (hCall : s.calls[k]? = some call)
    (hPhase : call.phase = .update server host)
    (hSpare : ∀ sid, s.db.assignedTo call.channelId = some sid → sid ≠ server → s.Spare d sid) :
    Balanced d { s.setPhase k call (.assign host) with db := s.db.assign call.channelId server } := by
  have hBooks : call.books = some server := by
    rw [Call.books, hPhase]
  have hPerm : (server :: (s.setPhase k call (.assign host)).bookings).Perm s.bookings := by
    have hPerm := filterMap_set_perm (f := Call.books) hCall { call with phase := .assign host }
    rwa [hBooks] at hPerm
  have hNone : ∀ id, { call with phase := .assign host }.books = some id → call.books = some id := by
    intro id hBooks
    cases hBooks
  have hDone : Balanced d (s.setPhase k call (.assign host)) := h.phased hCall hNone rfl rfl rfl
  unfold Database.assign
  split
  · have hLoad := s.db.load_setAssigned call.channelId (some server)
    -- what was booked is now a channel of the voice server
    have hBooked : ∀ id, (s.db.setAssigned call.channelId (some server)).load id +
        (s.setPhase k call (.assign host)).bookings.count id ≤ s.booked id := by
      intro id
      have hOne := hLoad id
      have hCount := hPerm.count_eq id
      simp only [List.count_cons, beq_iff_eq] at hCount
      simp only [Option.some.injEq] at hOne
      rw [booked, load]
      omega
    refine ⟨hDone.few, ?_⟩
    by_cases hSame : s.db.assignedTo call.channelId = none ∨ s.db.assignedTo call.channelId = some server
    · refine h.within.mono (fun _ hMem => hMem) (fun id _ => hBooked id) fun id _ => ?_
      have hOne := hLoad id
      rcases hSame with hOld | hOld
      · simp only [hOld, reduceCtorEq, if_false] at hOne
        exact Nat.le.intro hOne.symm
      · rw [hOld] at hOne
        exact Nat.le_of_eq (Nat.add_right_cancel hOne).symm
    · obtain ⟨hSome, hNe⟩ := not_or.mp hSame
      obtain ⟨sid, hOld⟩ := Option.ne_none_iff_exists'.mp hSome
      have hTaken : s.Spare d sid := hSpare sid hOld fun hEq => hNe (by rw [hOld, hEq])
      refine h.within.release hTaken hBooked fun j => ?_
      have hOne := hLoad j
      simp only [hOld, Option.some.injEq] at hOne
      exact Nat.le.intro hOne.symm
  · exact hDone

theorem Balanced.query (h : Balanced d s) {pick : Uuid} (hCall : s.calls[k]? = some call)
    (hSteady : Steady d s (.query k pick)) (hQuery : s.query k call pick = some s') : Balanced d s' := by
  have hGoes : ∀ phase, (∀ id, { call with phase }.books = some id → call.books = some id) →
      Balanced d (s.setPhase k call phase) := fun _ hPhase => h.phased hCall hPhase rfl rfl rfl
  cases hPhase : call.phase with
  | getChannel =>
    simp only [Hosting.query, hPhase, Option.some.injEq] at hQuery
    subst hQuery
    refine hGoes _ fun id hBooks => ?_
    split at hBooks
    · cases hBooks
    · split at hBooks <;> cases hBooks
  | getActive assignedTo =>
    simp only [Hosting.query, hPhase, Option.some.injEq] at hQuery
    subst hQuery
    refine hGoes _ fun id hBooks => ?_
    split at hBooks
    · split at hBooks <;> cases hBooks
    · cases hBooks
  | smallestLoad =>
    simp only [Hosting.query, hPhase, Hosting.smallestLoad] at hQuery
    split at hQuery
    · obtain ⟨hPick, hFound⟩ := Option.ite_none_right_eq_some.mp hQuery
      obtain ⟨v, _, rfl⟩ := Option.map_eq_some_iff.mp hFound
      exact h.pick hCall hPhase hPick (hSteady.1 (by simp [picks, hCall, hPhase]))
    · cases hQuery
      exact hGoes _ fun id hBooks => by cases hBooks
  | assignTo server host =>
    simp only [Hosting.query, hPhase, Option.some.injEq] at hQuery
    subst hQuery
    have hOld : call.books = some server := by
      rw [Call.books, hPhase]
    refine hGoes _ fun id hBooks => ?_
    split at hBooks
    · cases hBooks
    · split at hBooks
      · cases hBooks
      · cases hBooks
        exact hOld
  | update server host =>
    simp only [Hosting.query, hPhase, Hosting.update, Option.some.injEq] at hQuery
    subst hQuery
    split
    · rename_i hServer
      refine h.assign hCall hPhase fun sid hOld hNe => hSteady.2 sid ?_
      have hRow : server ∈ s.db.voiceServers := TreeMap.mem_iff_contains.mpr hServer
      simp [taken, hCall, Call.writes, hPhase, hRow, hOld, hNe]
    · exact hGoes _ fun id hBooks => by cases hBooks
  | status | lost | assign | done =>
    simp only [Hosting.query, hPhase] at hQuery
    cases hQuery

theorem Balanced.hosted (h : Balanced d s) (hCall : s.calls[k]? = some call) (sid : Uuid) (v : VoiceServerImpl)
    (ok : Bool) (host : String) : Balanced d (s.assignChannel k call sid v ok host) := by
  refine h.phased hCall (fun id hBooks => ?_) rfl rfl rfl
  split at hBooks <;> cases hBooks

theorem Balanced.request (h : Balanced d s) {sid : Uuid} {v : VoiceServerImpl} {ok : Bool}
    (hCall : s.calls[k]? = some call) (hRequest : s.request k call sid v ok = some s') : Balanced d s' := by
  unfold Hosting.request at hRequest
  split at hRequest
  · split at hRequest
    · split at hRequest <;> cases hRequest <;>
        exact h.phased hCall (fun id hBooks => by cases hBooks) rfl rfl rfl
    · cases hRequest
  · rename_i host _
    split at hRequest
    · cases hRequest
      exact h.hosted hCall sid v ok host
    · cases hRequest
  · rename_i host _
    split at hRequest
    · cases hRequest
      exact h.hosted hCall sid v ok host
    · cases hRequest
  · cases hRequest

theorem Balanced.next (h : Balanced d s) (hSteady : Steady d s e) (hNext : s.next e = some s') :
    Balanced d s' := by
  cases e with
  | tick millis =>
    cases hNext
    exact h.kept (List.Subperm.refl _) (fun _ => Database.candidates_ticked millis) fun _ _ => rfl
  | createChannel cid =>
    obtain ⟨hAbsent, hEq⟩ := Option.ite_none_left_eq_some.mp hNext
    cases hEq
    exact h.createChannel hAbsent
  | serve sid url =>
    obtain ⟨_, hEq⟩ := Option.ite_none_left_eq_some.mp hNext
    cases hEq
    exact h.kept (List.Subperm.refl _) (fun _ hMem => hMem) fun _ _ => rfl
  | heartbeat sid =>
    obtain ⟨v, _, rfl⟩ := Option.map_eq_some_iff.mp hNext
    exact h.heartbeat hSteady
  | cleanupStale =>
    cases hNext
    exact h.cleanupStale
  | call cid =>
    cases hNext
    exact h.called cid false
  | reassign k sid =>
    obtain ⟨call, _, hBind⟩ := Option.bind_eq_some_iff.mp hNext
    obtain ⟨v, _, hReassign⟩ := Option.bind_eq_some_iff.mp hBind
    unfold Hosting.reassign at hReassign
    split at hReassign
    · obtain ⟨_, hEq⟩ := Option.ite_none_right_eq_some.mp hReassign
      cases hEq
      exact h.called call.channelId true
    · cases hReassign
  | query k pick =>
    obtain ⟨call, hCall, hQuery⟩ := Option.bind_eq_some_iff.mp hNext
    exact h.query hCall hSteady hQuery
  | request k sid ok =>
    obtain ⟨call, hCall, hBind⟩ := Option.bind_eq_some_iff.mp hNext
    obtain ⟨v, _, hRequest⟩ := Option.bind_eq_some_iff.mp hBind
    exact h.request hCall hRequest
  | fail k =>
    obtain ⟨call, hCall, hFail⟩ := Option.bind_eq_some_iff.mp hNext
    split at hFail
    · cases hFail
    · cases hFail
      exact h.phased hCall (fun id hBooks => by cases hBooks) rfl rfl rfl
  | leaving sid f | notified sid f | aborted sid f =>
    obtain ⟨v, _, hBind⟩ := Option.bind_eq_some_iff.mp hNext
    obtain ⟨forwarder, _, hMap⟩ := Option.bind_eq_some_iff.mp hBind
    obtain ⟨v', _, rfl⟩ := Option.map_eq_some_iff.mp hMap
    exact h.kept (List.Subperm.refl _) (fun _ hMem => hMem) fun _ _ => rfl
  | cleanup sid =>
    obtain ⟨v, _, hCleanup⟩ := Option.bind_eq_some_iff.mp hNext
    split at hCleanup
    · cases hCleanup
      exact h.kept (List.Subperm.refl _) (fun _ hMem => hMem) fun _ _ => rfl
    · cases hCleanup
  | unassign sid n =>
    obtain ⟨v, hServer, hMap⟩ := Option.bind_eq_some_iff.mp hNext
    obtain ⟨cid, hTask, rfl⟩ := Option.map_eq_some_iff.mp hMap
    have hLoads : Balanced d { s with db := s.db.unassign cid sid } := by
      refine h.unassign fun hOld => hSteady sid ?_
      simp [taken, hServer, hTask, hOld]
    exact ⟨hLoads.few, hLoads.within⟩

end Steps

/-- While at most `d` voice servers are booked at a time, and as long as a voice server becomes active with
about the load of the others and loses channels only where it can spare them: no active voice server hosts
over `d` channels more than another, and none over `d` more than its part of all channels. -/
theorem loads_balanced (d : Nat) (es : List Event) (s : Hosting) (tr : List Empty)
    (hSteady : Machine.Along step (Steady d) new es) (hRun : Machine.run step new es = some (s, tr)) :
    (∀ i ∈ s.active, ∀ j ∈ s.active, s.load i ≤ s.load j + d) ∧
    ∀ i ∈ s.active, s.active.length * s.load i ≤ s.db.channels.size + s.active.length * d := by
  have hBalanced : Balanced d s := by
    refine Machine.run_induction_along (P := fun s _ => Balanced d s) ?_ ?_ hSteady hRun
    · exact ⟨Nat.zero_le d, fun i hMem => by cases hMem⟩
    · intro s₁ _ e s₂ o h hOk hStep
      obtain ⟨_, hNext, hEq⟩ := Option.map_eq_some_iff.mp hStep
      cases hEq
      exact h.next hOk hNext
  have hLoad : Within d s.active s.load s.load := by
    refine hBalanced.within.mono (fun _ hMem => hMem) (fun id _ => ?_) fun _ _ => Nat.le_refl _
    exact Nat.le_add_right (s.load id) _
  refine ⟨hLoad, fun i hMem => Nat.le_trans (hLoad.share hMem) ?_⟩
  exact Nat.add_le_add_right (s.db.sum_load_le (s.db.nodup_candidates s.now)) _

/-- Two calls pick the same voice server before either has assigned its channel. -/
def contended : List Event :=
  [.serve 1 "a", .serve 2 "b", .heartbeat 1, .heartbeat 2, .createChannel 7, .createChannel 8,
    .createChannel 9, .call 7, .call 8, .query 0 0, .query 1 0, .query 0 1, .query 1 1, .query 0 0,
    .query 1 0, .query 0 0, .query 1 0, .call 9, .query 2 0, .query 2 2, .query 2 0, .query 2 0]

theorem loads_balanced_contended : ∃ s tr, Machine.run step new contended = some (s, tr) ∧
    s.load 1 = 2 ∧ s.load 2 = 1 ∧ ∀ i ∈ s.active, ∀ j ∈ s.active, s.load i ≤ s.load j + 2 := by
  have hAny : (Machine.run step new contended).any (fun last =>
      decide (last.1.load 1 = 2 ∧ last.1.load 2 = 1)) = true := by
    decide +kernel
  obtain ⟨⟨s, tr⟩, hRun, hLoads⟩ := (Option.any_eq_true _ _).mp hAny
  obtain ⟨hFirst, hSecond⟩ := of_decide_eq_true hLoads
  have hSteady : Machine.Along step (Steady 2) new contended := by
    decide +kernel
  exact ⟨s, tr, hRun, hFirst, hSecond, (loads_balanced 2 contended s tr hSteady hRun).1⟩

end Hosting

end Voices.Registry
