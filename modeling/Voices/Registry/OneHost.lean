import Voices.Registry.Hosting

/-!
# One host for a channel

The registry records one voice server for a channel. That server is the only
one with a running forwarder as long as a forwarder is started only on the
recorded server, and the record is taken from a server only when that has none.
-/

namespace Voices.Registry

open Semantics VoiceServer Std

namespace Hosting

def OneHost (s : Hosting) : Prop :=
  ∀ cid sid sid', s.runs sid cid = true → s.runs sid' cid = true → sid = sid'

/-- A forwarder runs only on the server to which its channel is assigned. -/
def Recorded (s : Hosting) : Prop :=
  ∀ sid cid, s.runs sid cid = true → s.db.assignedTo cid = some sid

/-- A server that does not know a channel is asked to host it only while the channel is assigned
to it, and the assignment changes only while the server that loses it runs no forwarder for the
channel. -/
def Guarded (s : Hosting) : Event → Prop
  | .request k sid ok => ∀ call ∈ s.calls[k]?, call.asksToHost = true → ok = true →
      ∀ v ∈ s.servers[sid]?, v.channels[call.channelId]? = none → s.db.assignedTo call.channelId = some sid
  | .query k _ => ∀ call ∈ s.calls[k]?, ∀ server ∈ call.writes, s.db.voiceServers.contains server = true →
      ∀ old ∈ s.db.assignedTo call.channelId, old ≠ server → s.runs old call.channelId = false
  | .unassign sid n => ∀ v ∈ s.servers[sid]?, ∀ cid ∈ v.unassigning[n]?,
      s.db.assignedTo cid = some sid → s.runs sid cid = false
  | .cleanupStale => ∀ row ∈ s.db.channels.toList, ∀ sid ∈ row.2.assignedTo,
      s.db.isStale s.now sid = true → s.runs sid row.1 = false
  | _ => True

/-- Looks at one id, where the instance for bit vectors would look at all. -/
instance (priority := 2000) {p : Uuid → Prop} [DecidablePred p] (o : Option Uuid) :
    Decidable (∀ id ∈ o, p id) := Option.decidableForallMem o

instance (s : Hosting) : (e : Event) → Decidable (s.Guarded e)
  | .request k sid ok => inferInstanceAs (Decidable (∀ call ∈ s.calls[k]?, call.asksToHost = true →
      ok = true → ∀ v ∈ s.servers[sid]?, v.channels[call.channelId]? = none →
        s.db.assignedTo call.channelId = some sid))
  | .query k _ => inferInstanceAs (Decidable (∀ call ∈ s.calls[k]?, ∀ server ∈ call.writes,
      s.db.voiceServers.contains server = true → ∀ old ∈ s.db.assignedTo call.channelId,
        old ≠ server → s.runs old call.channelId = false))
  | .unassign sid n => inferInstanceAs (Decidable (∀ v ∈ s.servers[sid]?, ∀ cid ∈ v.unassigning[n]?,
      s.db.assignedTo cid = some sid → s.runs sid cid = false))
  | .cleanupStale => inferInstanceAs (Decidable (∀ row ∈ s.db.channels.toList,
      ∀ sid ∈ row.2.assignedTo, s.db.isStale s.now sid = true → s.runs sid row.1 = false))
  | .tick _ | .createChannel _ | .serve _ _ | .heartbeat _ | .call _ | .reassign _ _ | .fail _
  | .leaving _ _ | .notified _ _ | .aborted _ _ | .cleanup _ => .isTrue trivial

inductive Effect (s : Hosting) : Event → Hosting → Prop where
  | kept (e : Event) (s' : Hosting) (hAssigned : ∀ cid, s'.db.assignedTo cid = s.db.assignedTo cid)
      (hRuns : ∀ sid cid, s'.runs sid cid = true → s.runs sid cid = true) : Effect s e s'
  | started (k : Nat) (sid : Uuid) (call : Call) (v : VoiceServerImpl) (s' : Hosting)
      (hCall : s.calls[k]? = some call) (hAsks : call.asksToHost = true)
      (hServer : s.servers[sid]? = some v) (hVacant : v.channels[call.channelId]? = none)
      (hAssigned : ∀ cid, s'.db.assignedTo cid = s.db.assignedTo cid)
      (hRuns : ∀ sid' cid, s'.runs sid' cid = true →
        s.runs sid' cid = true ∨ (sid' = sid ∧ cid = call.channelId)) :
      Effect s (.request k sid true) s'
  | updated (k : Nat) (pick server : Uuid) (call : Call) (host : String) (s' : Hosting)
      (hCall : s.calls[k]? = some call) (hPhase : call.phase = .update server host)
      (hStored : s.db.voiceServers.contains server = true)
      (hDb : s'.db = s.db.assign call.channelId server) (hServers : s'.servers = s.servers) :
      Effect s (.query k pick) s'
  | unassigned (sid : Uuid) (n : Nat) (v : VoiceServerImpl) (cid : Uuid) (s' : Hosting)
      (hServer : s.servers[sid]? = some v) (hTask : v.unassigning[n]? = some cid)
      (hDb : s'.db = s.db.unassign cid sid)
      (hRuns : ∀ sid cid, s'.runs sid cid = true → s.runs sid cid = true) :
      Effect s (.unassign sid n) s'
  | cleaned (s' : Hosting) (hDb : s'.db = s.db.cleanupStale s.now) (hServers : s'.servers = s.servers) :
      Effect s .cleanupStale s'

variable {s s' : Hosting} {e : Event}

theorem runs_eq_true_iff {sid cid : Uuid} :
    s.runs sid cid = true ↔ ∃ v, s.servers[sid]? = some v ∧ (cid, .running) ∈ v.forwarders := by
  unfold runs VoiceServerImpl.runs
  cases s.servers[sid]? <;> simp

theorem runs_of_servers (hServers : s'.servers = s.servers) (sid cid : Uuid) :
    s'.runs sid cid = s.runs sid cid := by
  simp [runs, hServers]

theorem runs_setServer {sid : Uuid} {v v' : VoiceServerImpl} (hServer : s.servers[sid]? = some v)
    {sid' cid : Uuid} (hRuns : (s.setServer sid v').runs sid' cid = true) :
    s.runs sid' cid = true ∨
      (sid' = sid ∧ (cid, .running) ∈ v'.forwarders ∧ (cid, .running) ∉ v.forwarders) := by
  obtain ⟨w, hLookup, hMem⟩ := runs_eq_true_iff.mp hRuns
  rcases lookup_insert_iff.mp hLookup with ⟨rfl, rfl⟩ | ⟨_, hSame⟩
  · by_cases hOld : (cid, ForwarderState.running) ∈ v.forwarders
    · exact .inl (runs_eq_true_iff.mpr ⟨v, hServer, hOld⟩)
    · exact .inr ⟨rfl, hMem, hOld⟩
  · exact .inl (runs_eq_true_iff.mpr ⟨w, hSame, hMem⟩)

theorem runs_before {sid : Uuid} {v v' : VoiceServerImpl} (hServer : s.servers[sid]? = some v)
    {sid' cid : Uuid} (hRuns : (s.setServer sid v').runs sid' cid = true)
    (hForwarders : ∀ cid, (cid, .running) ∈ v'.forwarders → (cid, ForwarderState.running) ∈ v.forwarders) :
    s.runs sid' cid = true := by
  rcases runs_setServer hServer hRuns with hOld | ⟨_, hNew, hNot⟩
  · exact hOld
  · exact absurd (hForwarders cid hNew) hNot

theorem query_effect {k : Nat} {call : Call} {pick : Uuid} (hCall : s.calls[k]? = some call)
    (hQuery : s.query k call pick = some s') : Effect s (.query k pick) s' := by
  have hKept (phase : Phase) : Effect s (.query k pick) (s.setPhase k call phase) :=
    .kept _ _ (fun _ => rfl) (fun _ _ h => h)
  cases hPhase : call.phase with
  | getChannel | getActive | assignTo =>
    simp only [query, hPhase, Option.some.injEq] at hQuery
    subst hQuery
    exact hKept _
  | smallestLoad =>
    simp only [query, hPhase, smallestLoad] at hQuery
    split at hQuery
    · split at hQuery
      · obtain ⟨v, _, rfl⟩ := Option.map_eq_some_iff.mp hQuery
        exact hKept _
      · cases hQuery
    · cases hQuery
      exact hKept _
  | update server host =>
    simp only [query, hPhase, update, Option.some.injEq] at hQuery
    subst hQuery
    split
    · exact .updated k pick server call host _ hCall hPhase ‹_› rfl rfl
    · exact hKept _
  | status | lost | assign | done =>
    simp only [query, hPhase] at hQuery
    cases hQuery

theorem assignChannel_effect {k : Nat} {call : Call} {sid : Uuid} {v : VoiceServerImpl} {ok : Bool}
    (hCall : s.calls[k]? = some call) (hServer : s.servers[sid]? = some v)
    (hAsks : call.asksToHost = true) (host : String) :
    Effect s (.request k sid ok) (s.assignChannel k call sid v ok host) := by
  cases hLookup : v.channels[call.channelId]? with
  | some f =>
    refine .kept _ _ (fun _ => rfl) (fun sid' cid hRuns => ?_)
    simp only [assignChannel, VoiceServerImpl.assignChannel, hLookup] at hRuns
    exact runs_before hServer hRuns (fun _ h => h)
  | none =>
    cases ok with
    | false =>
      refine .kept _ _ (fun _ => rfl) (fun sid' cid hRuns => ?_)
      simp only [assignChannel, VoiceServerImpl.assignChannel, hLookup] at hRuns
      exact runs_before hServer hRuns (fun _ h => h)
    | true =>
      refine .started k sid call v _ hCall hAsks hServer hLookup (fun _ => rfl) (fun sid' cid hRuns => ?_)
      simp only [assignChannel, VoiceServerImpl.assignChannel, hLookup] at hRuns
      rcases runs_setServer hServer hRuns with hOld | ⟨hSid, hNew, hNot⟩
      · exact .inl hOld
      · have hCases : (cid, ForwarderState.running) ∈ v.forwarders ∨ cid = call.channelId := by
          simpa [VoiceServerImpl.startForwarder] using hNew
        exact .inr ⟨hSid, hCases.resolve_left hNot⟩

theorem request_effect {k : Nat} {call : Call} {sid : Uuid} {v : VoiceServerImpl} {ok : Bool}
    (hCall : s.calls[k]? = some call) (hServer : s.servers[sid]? = some v)
    (hRequest : s.request k call sid v ok = some s') : Effect s (.request k sid ok) s' := by
  have hKept (phase : Phase) : Effect s (.request k sid ok) (s.setPhase k call phase) :=
    .kept _ _ (fun _ => rfl) (fun _ _ h => h)
  unfold request at hRequest
  split at hRequest
  · split at hRequest
    · split at hRequest <;> cases hRequest <;> exact hKept _
    · cases hRequest
  · rename_i host hPhase
    split at hRequest
    · cases hRequest
      exact assignChannel_effect hCall hServer (by simp [Call.asksToHost, hPhase]) host
    · cases hRequest
  · rename_i host hPhase
    split at hRequest
    · cases hRequest
      exact assignChannel_effect hCall hServer (by simp [Call.asksToHost, hPhase]) host
    · cases hRequest
  · cases hRequest

theorem forwarder_effect {sid : Uuid} {f : Nat}
    {next : VoiceServerImpl → Uuid → ForwarderState → Option VoiceServerImpl}
    (hNext : ∀ v id state v', next v id state = some v' → ∃ state', state' ≠ .running ∧
      v'.forwarders = v.forwarders.set f (id, state'))
    (hStep : s.forwarder sid f next = some s') : Effect s e s' := by
  obtain ⟨v, hServer, hBind⟩ := Option.bind_eq_some_iff.mp hStep
  obtain ⟨⟨id, state⟩, _, hMap⟩ := Option.bind_eq_some_iff.mp hBind
  obtain ⟨v', hNew, rfl⟩ := Option.map_eq_some_iff.mp hMap
  obtain ⟨state', hNot, hForwarders⟩ := hNext v id state v' hNew
  refine .kept _ _ (fun _ => rfl) (fun sid' cid hRuns => runs_before hServer hRuns (fun cid hMem => ?_))
  rw [hForwarders] at hMem
  rcases List.mem_or_eq_of_mem_set hMem with hOld | hEq
  · exact hOld
  · cases hEq
    exact absurd rfl hNot

theorem next_effect (hNext : s.next e = some s') : Effect s e s' := by
  cases e with
  | tick millis | call cid =>
    cases hNext
    exact .kept _ _ (fun _ => rfl) (fun _ _ h => h)
  | createChannel cid =>
    simp only [next, Option.ite_none_left_eq_some, Option.some.injEq] at hNext
    obtain ⟨hFresh, rfl⟩ := hNext
    refine .kept _ _ (fun other => ?_) (fun _ _ h => h)
    rw [Database.createChannel, Database.assignedTo_setAssigned]
    split
    · rename_i hEq
      subst hEq
      have hNone : s.db.channels[cid]? = none := by simpa using hFresh
      simp [Database.assignedTo, hNone]
    · rfl
  | serve sid url =>
    simp only [next, Option.ite_none_left_eq_some, Option.some.injEq] at hNext
    obtain ⟨hFresh, rfl⟩ := hNext
    refine .kept _ _ (fun _ => rfl) (fun sid' cid hRuns => ?_)
    obtain ⟨v, hLookup, hMem⟩ := runs_eq_true_iff.mp hRuns
    rcases lookup_insert_iff.mp hLookup with ⟨rfl, rfl⟩ | ⟨_, hOld⟩
    · cases hMem
    · exact runs_eq_true_iff.mpr ⟨v, hOld, hMem⟩
  | heartbeat sid =>
    obtain ⟨v, _, rfl⟩ := Option.map_eq_some_iff.mp hNext
    exact .kept _ _ (fun _ => rfl) (fun _ _ h => h)
  | cleanupStale =>
    cases hNext
    exact .cleaned _ rfl rfl
  | reassign k sid =>
    obtain ⟨call, _, hBind⟩ := Option.bind_eq_some_iff.mp hNext
    obtain ⟨v, _, hReassign⟩ := Option.bind_eq_some_iff.mp hBind
    unfold reassign at hReassign
    split at hReassign
    · split at hReassign
      · cases hReassign
        exact .kept _ _ (fun _ => rfl) (fun _ _ h => h)
      · cases hReassign
    · cases hReassign
  | query k pick =>
    obtain ⟨call, hCall, hQuery⟩ := Option.bind_eq_some_iff.mp hNext
    exact query_effect hCall hQuery
  | request k sid ok =>
    obtain ⟨call, hCall, hBind⟩ := Option.bind_eq_some_iff.mp hNext
    obtain ⟨v, hServer, hRequest⟩ := Option.bind_eq_some_iff.mp hBind
    exact request_effect hCall hServer hRequest
  | fail k =>
    obtain ⟨call, _, hFail⟩ := Option.bind_eq_some_iff.mp hNext
    split at hFail
    · cases hFail
    · cases hFail
      exact .kept _ _ (fun _ => rfl) (fun _ _ h => h)
  | leaving sid f =>
    have hStep : s.forwarder sid f (VoiceServerImpl.leave f) = some s' := hNext
    refine forwarder_effect (fun v id state v' hNew => ?_) hStep
    cases state <;> cases hNew
    exact ⟨.leaving, by simp, rfl⟩
  | notified sid f =>
    have hStep : s.forwarder sid f (VoiceServerImpl.notify f) = some s' := hNext
    refine forwarder_effect (fun v id state v' hNew => ?_) hStep
    cases state <;> cases hNew
    exact ⟨.ended, by simp, rfl⟩
  | aborted sid f =>
    have hStep : s.forwarder sid f (VoiceServerImpl.abort f) = some s' := hNext
    refine forwarder_effect (fun v id state v' hNew => ?_) hStep
    cases state <;> cases hNew <;> exact ⟨.ended, by simp, rfl⟩
  | cleanup sid =>
    obtain ⟨v, hServer, hCleanup⟩ := Option.bind_eq_some_iff.mp hNext
    split at hCleanup
    · cases hCleanup
      exact .kept _ _ (fun _ => rfl) (fun _ _ hRuns => runs_before hServer hRuns (fun _ h => h))
    · cases hCleanup
  | unassign sid n =>
    obtain ⟨v, hServer, hMap⟩ := Option.bind_eq_some_iff.mp hNext
    obtain ⟨cid, hTask, rfl⟩ := Option.map_eq_some_iff.mp hMap
    exact .unassigned sid n v cid _ hServer hTask rfl
      (fun _ _ hRuns => runs_before hServer hRuns (fun _ h => h))

theorem Recorded.step (hRecorded : s.Recorded) (hOk : s.Guarded e) (h : Effect s e s') : s'.Recorded := by
  intro sid cid hRuns
  cases h with
  | kept _ _ hAssigned hBefore =>
    rw [hAssigned]
    exact hRecorded sid cid (hBefore sid cid hRuns)
  | started k sid' call v _ hCall hAsks hServer hVacant hAssigned hBefore =>
    rw [hAssigned]
    rcases hBefore sid cid hRuns with hOld | ⟨rfl, rfl⟩
    · exact hRecorded sid cid hOld
    · exact hOk call hCall hAsks rfl v hServer hVacant
  | updated k pick server call host _ hCall hPhase hStored hDb hServers =>
    rw [runs_of_servers hServers] at hRuns
    have hOld : s.db.assignedTo cid = some sid := hRecorded sid cid hRuns
    rw [hDb]
    rcases s.db.assignedTo_assign call.channelId server cid with hSame | ⟨rfl, hNew⟩
    · rw [hSame, hOld]
    · rw [hNew]
      by_contra hNe
      have hStopped : s.runs sid call.channelId = false := by
        refine hOk call hCall server (by simp [Call.writes, hPhase]) hStored sid hOld ?_
        exact fun hEq => hNe (congrArg some hEq.symm)
      simp [hStopped] at hRuns
  | unassigned sid' n v cid' _ hServer hTask hDb hBefore =>
    have hRun : s.runs sid cid = true := hBefore sid cid hRuns
    have hOld : s.db.assignedTo cid = some sid := hRecorded sid cid hRun
    rw [hDb, Database.assignedTo_unassign, if_neg, hOld]
    rintro ⟨rfl, hOwn⟩
    cases hOld.symm.trans hOwn
    simp [hOk v hServer cid' hTask hOwn] at hRun
  | cleaned _ hDb hServers =>
    rw [runs_of_servers hServers] at hRuns
    have hOld : s.db.assignedTo cid = some sid := hRecorded sid cid hRuns
    obtain ⟨row, hRow, hRowAssigned⟩ := Option.bind_eq_some_iff.mp hOld
    have hFresh : s.db.isStale s.now sid = false := by
      by_contra hStale
      have hStopped := hOk (cid, row) (TreeMap.mem_toList_iff_getElem?_eq_some.mpr hRow) sid hRowAssigned
        (by simpa using hStale)
      simp [hStopped] at hRuns
    rw [hDb, Database.assignedTo_cleanupStale, hOld]
    simp [hFresh]

theorem Recorded.oneHost (hRecorded : s.Recorded) : s.OneHost := by
  intro cid sid sid' hRuns hRuns'
  exact Option.some.inj ((hRecorded sid cid hRuns).symm.trans (hRecorded sid' cid hRuns'))

theorem new_recorded : new.Recorded := by
  simp [Recorded, new, runs]

theorem oneHost_along (es : List Event) (s : Hosting) (tr : List Empty)
    (hRun : Machine.run step new es = some (s, tr))
    (hAlong : Machine.Along step Guarded new es) : s.OneHost := by
  have hRecorded : s.Recorded := by
    refine Machine.run_induction_along (P := fun s _ => s.Recorded) new_recorded ?_ hAlong hRun
    intro s₁ _ e s₂ o hRecorded hOk hStep
    obtain ⟨_, hNext, hEq⟩ := Option.map_eq_some_iff.mp hStep
    cases hEq
    exact hRecorded.step hOk (next_effect hNext)
  exact hRecorded.oneHost

def registered : List Event :=
  [.serve 1 "a", .serve 2 "b", .heartbeat 1, .heartbeat 2, .createChannel 7]

def hosted : List Event :=
  registered ++ [.call 7, .query 0 0, .query 0 1, .query 0 0, .query 0 0, .request 0 1 true]

/-- Two calls find the channel unassigned and are picked the same server. The channel is hosted there
before the second of them writes the row. -/
def agreed : List Event :=
  registered ++ [.call 7, .call 7, .query 0 0, .query 1 0, .query 0 1, .query 1 1, .query 0 0, .query 1 0,
    .query 0 0, .request 0 1 true, .query 1 0, .request 1 1 true]

theorem oneHost_along_hosted : ∃ s tr,
    Machine.run step new agreed = some (s, tr) ∧ s.runs 1 7 = true ∧ s.OneHost := by
  have hFacts : (Machine.run step new agreed).map (fun last => last.1.runs 1 7) = some true := by decide
  obtain ⟨⟨s, tr⟩, hRun, hRuns⟩ := Option.map_eq_some_iff.mp hFacts
  exact ⟨s, tr, hRun, hRuns, oneHost_along agreed s tr hRun (by decide)⟩

/-- Two calls find the channel unassigned. The second is answered the server with the smallest
load, although the channel is assigned to the other by then. -/
def overtaken : List Event :=
  registered ++ [.call 7, .call 7, .query 0 0, .query 1 0, .query 0 1, .query 0 0, .query 0 0,
    .request 0 1 true, .query 1 2, .query 1 0, .request 1 2 true]

theorem not_oneHost : ¬ ∀ (es : List Event) (s : Hosting) (tr : List Empty),
    Machine.run step new es = some (s, tr) → s.OneHost := by
  intro hAll
  have hLast : (Machine.run step new overtaken).map (fun last =>
      decide (last.1.runs 1 7 = true ∧ last.1.runs 2 7 = true)) = some true := by
    decide
  obtain ⟨⟨s, tr⟩, hRun, hState⟩ := Option.map_eq_some_iff.mp hLast
  obtain ⟨hFirst, hSecond⟩ := of_decide_eq_true hState
  cases hAll overtaken s tr hRun 7 1 2 hFirst hSecond

end Hosting

end Voices.Registry
