import Voices.Registry.OneHost

/-!
# Unassigning late

When a forwarder has ended, its server tells the registry in a task of its own.
The registry knows the channel and the server, but not which forwarder is meant:
it takes the channel from the server whatever that runs for it by then.
-/

namespace Voices.Registry

open Semantics VoiceServer Std

inductive ServerEffect (v : VoiceServerImpl) : VoiceServerImpl → Prop where
  | kept : ServerEffect v v
  | started (id : Uuid) (hVacant : v.channels[id]? = none) : ServerEffect v (v.startForwarder id)
  | left (f : Nat) (id : Uuid) (hRunning : v.forwarders[f]? = some (id, .running)) :
      ServerEffect v (v.setForwarder f id .leaving)
  | notified (f : Nat) (id : Uuid) (hLeaving : v.forwarders[f]? = some (id, .leaving)) :
      ServerEffect v { v.setForwarder f id .ended with cleanup := v.cleanup ++ [id] }
  | aborted (f : Nat) (id : Uuid) (state : ForwarderState) (hState : state ≠ .ended)
      (hForwarder : v.forwarders[f]? = some (id, state)) :
      ServerEffect v (v.setForwarder f id .ended)
  | cleaned (id : Uuid) (rest : List Uuid) (hCleanup : v.cleanup = id :: rest) :
      ServerEffect v { v with
        channels := v.channels.erase id, cleanup := rest, unassigning := v.unassigning ++ [id] }
  | unassigned (n : Nat) : ServerEffect v { v with unassigning := v.unassigning.eraseIdx n }

namespace VoiceServerImpl

/-- The map of channels, the forwarders and what is still to be cleaned up agree. -/
structure Sound (v : VoiceServerImpl) : Prop where
  current : ∀ (f : Nat) (id : Uuid) (state : ForwarderState), v.forwarders[f]? = some (id, state) →
    state ≠ .ended → v.channels[id]? = some f
  notified : ∀ id ∈ v.cleanup, ∃ f : Nat,
    v.channels[id]? = some f ∧ v.forwarders[f]? = some (id, .ended)
  nodup : v.cleanup.Nodup
  unassigning : ∀ id ∈ v.unassigning, ∃ f : Nat, v.forwarders[f]? = some (id, .ended)
  older : ∀ (f f' : Nat) (id : Uuid), v.forwarders[f]? = some (id, .ended) →
    v.forwarders[f']? = some (id, .running) → f < f'

variable {v v' : VoiceServerImpl}

theorem startForwarder_channels (v : VoiceServerImpl) (id other : Uuid) :
    (v.startForwarder id).channels[other]? =
      if id = other then some v.forwarders.length else v.channels[other]? := by
  simp [startForwarder, TreeMap.getElem?_insert]

theorem Sound.started (hSound : v.Sound) {id : Uuid} (hVacant : v.channels[id]? = none) :
    (v.startForwarder id).Sound where
  current f other state hForwarder hState := by
    rw [startForwarder_channels]
    rcases getElem?_snoc_iff.mp hForwarder with hOld | ⟨rfl, hNew⟩
    · have hCurrent := hSound.current f other state hOld hState
      rw [if_neg, hCurrent]
      rintro rfl
      cases hVacant.symm.trans hCurrent
    · cases hNew
      rw [if_pos rfl]
  notified other hMem := by
    obtain ⟨f, hChannel, hEnded⟩ := hSound.notified other hMem
    refine ⟨f, ?_, getElem?_snoc_iff.mpr (.inl hEnded)⟩
    rw [startForwarder_channels, if_neg, hChannel]
    rintro rfl
    cases hVacant.symm.trans hChannel
  nodup := hSound.nodup
  unassigning other hMem := by
    obtain ⟨f, hEnded⟩ := hSound.unassigning other hMem
    exact ⟨f, getElem?_snoc_iff.mpr (.inl hEnded)⟩
  older f f' other hEnded hRunning := by
    rcases getElem?_snoc_iff.mp hEnded with hOld | ⟨_, hNew⟩
    · rcases getElem?_snoc_iff.mp hRunning with hOld' | ⟨rfl, _⟩
      · exact hSound.older f f' other hOld hOld'
      · exact (List.getElem?_eq_some_iff.mp hOld).1
    · cases hNew

theorem Sound.setForwarder (hSound : v.Sound) {f : Nat} {id : Uuid} {state state' : ForwarderState}
    (hForwarder : v.forwarders[f]? = some (id, state)) (hState : state ≠ .ended)
    (hState' : state' ≠ .running) : (v.setForwarder f id state').Sound where
  current g other new hNew hNe := by
    rcases (getElem?_set_iff hForwarder).mp hNew with ⟨rfl, hEq⟩ | ⟨_, hOld⟩
    · cases hEq
      exact hSound.current g id state hForwarder hState
    · exact hSound.current g other new hOld hNe
  notified other hMem := by
    obtain ⟨g, hChannel, hEnded⟩ := hSound.notified other hMem
    refine ⟨g, hChannel, getElem?_set_there hForwarder ?_ hEnded⟩
    rintro rfl
    cases hForwarder.symm.trans hEnded
    exact hState rfl
  nodup := hSound.nodup
  unassigning other hMem := by
    obtain ⟨g, hEnded⟩ := hSound.unassigning other hMem
    refine ⟨g, getElem?_set_there hForwarder ?_ hEnded⟩
    rintro rfl
    cases hForwarder.symm.trans hEnded
    exact hState rfl
  older g g' other hEnded hRunning := by
    rcases (getElem?_set_iff hForwarder).mp hRunning with ⟨_, hEq⟩ | ⟨hNe, hOld'⟩
    · cases hEq
      exact absurd rfl hState'
    · rcases (getElem?_set_iff hForwarder).mp hEnded with ⟨rfl, hEq⟩ | ⟨_, hOld⟩
      · -- both would be the channel's entry
        cases hEq
        have hFirst := hSound.current g id state hForwarder hState
        have hSecond := hSound.current g' id .running hOld' (by simp)
        exact absurd (Option.some.inj (hSecond.symm.trans hFirst)) hNe
      · exact hSound.older g g' other hOld hOld'

theorem Sound.notify (hSound : v.Sound) {f : Nat} {id : Uuid}
    (hLeaving : v.forwarders[f]? = some (id, .leaving)) :
    Sound { v.setForwarder f id .ended with cleanup := v.cleanup ++ [id] } := by
  have hSet : (v.setForwarder f id .ended).Sound := hSound.setForwarder hLeaving (by simp) (by simp)
  have hChannel := hSound.current f id .leaving hLeaving (by simp)
  refine ⟨hSet.current, ?_, ?_, hSet.unassigning, hSet.older⟩
  · intro other hMem
    rcases List.mem_append.mp hMem with hOld | hNew
    · exact hSet.notified other hOld
    · obtain rfl := List.mem_singleton.mp hNew
      exact ⟨f, hChannel, getElem?_set_here hLeaving⟩
  · refine List.nodup_append.mpr ⟨hSound.nodup, by simp, ?_⟩
    rintro a hMem b hNew rfl
    obtain rfl := List.mem_singleton.mp hNew
    obtain ⟨g, hEntry, hEnded⟩ := hSound.notified a hMem
    cases hChannel.symm.trans hEntry
    cases hLeaving.symm.trans hEnded

theorem Sound.cleaned (hSound : v.Sound) {id : Uuid} {rest : List Uuid}
    (hCleanup : v.cleanup = id :: rest) :
    Sound { v with
      channels := v.channels.erase id, cleanup := rest, unassigning := v.unassigning ++ [id] } := by
  obtain ⟨f, hEntry, hEnded⟩ := hSound.notified id (by simp [hCleanup])
  have hNodup := hSound.nodup
  rw [hCleanup, List.nodup_cons] at hNodup
  refine ⟨fun g other state hForwarder hState => ?_, fun other hMem => ?_, hNodup.2,
    fun other hMem => ?_, hSound.older⟩
  · have hCurrent := hSound.current g other state hForwarder hState
    refine lookup_erase_iff.mpr ⟨?_, hCurrent⟩
    rintro rfl
    cases hEntry.symm.trans hCurrent
    cases hEnded.symm.trans hForwarder
    exact hState rfl
  · obtain ⟨g, hChannel, hOther⟩ := hSound.notified other (by simp [hCleanup, hMem])
    refine ⟨g, lookup_erase_iff.mpr ⟨?_, hChannel⟩, hOther⟩
    rintro rfl
    exact hNodup.1 hMem
  · rcases List.mem_append.mp hMem with hOld | hNew
    · exact hSound.unassigning other hOld
    · obtain rfl := List.mem_singleton.mp hNew
      exact ⟨f, hEnded⟩

theorem Sound.step (hSound : v.Sound) (h : ServerEffect v v') : v'.Sound := by
  cases h with
  | kept => exact hSound
  | started id hVacant => exact hSound.started hVacant
  | left f id hRunning => exact hSound.setForwarder hRunning (by simp) (by simp)
  | notified f id hLeaving => exact hSound.notify hLeaving
  | aborted f id state hState hForwarder => exact hSound.setForwarder hForwarder hState (by simp)
  | cleaned id rest hCleanup => exact hSound.cleaned hCleanup
  | unassigned n =>
    exact ⟨hSound.current, hSound.notified, hSound.nodup,
      fun id hMem => hSound.unassigning id (List.mem_of_mem_eraseIdx hMem), hSound.older⟩

end VoiceServerImpl

namespace Hosting

/-- The servers of the next state are servers of this one that took one step, or are new. -/
def ServersStep (s s' : Hosting) : Prop :=
  ∀ (sid : Uuid) (v' : VoiceServerImpl), s'.servers[sid]? = some v' →
    v'.Sound ∨ ∃ v, s.servers[sid]? = some v ∧ ServerEffect v v'

variable {s s' : Hosting} {e : Event}

theorem serversStep_same (hServers : s'.servers = s.servers) : ServersStep s s' :=
  fun _ v' hServer => .inr ⟨v', hServers ▸ hServer, .kept⟩

theorem serversStep_setServer {sid : Uuid} {v v' : VoiceServerImpl} (hServer : s.servers[sid]? = some v)
    (h : ServerEffect v v') (hServers : s'.servers = (s.setServer sid v').servers) :
    ServersStep s s' := by
  intro sid' w hLookup
  rw [hServers] at hLookup
  right
  rcases lookup_insert_iff.mp hLookup with ⟨rfl, rfl⟩ | ⟨_, hSame⟩
  · exact ⟨v, hServer, h⟩
  · exact ⟨w, hSame, .kept⟩

theorem query_servers {k : Nat} {call : Call} {pick : Uuid} (hQuery : s.query k call pick = some s') :
    s'.servers = s.servers := by
  cases hPhase : call.phase with
  | getChannel | getActive | assignTo =>
    simp only [query, hPhase, Option.some.injEq] at hQuery
    rw [← hQuery]
    rfl
  | smallestLoad =>
    simp only [query, hPhase, smallestLoad] at hQuery
    split at hQuery
    · split at hQuery
      · obtain ⟨v, _, rfl⟩ := Option.map_eq_some_iff.mp hQuery
        rfl
      · cases hQuery
    · cases hQuery
      rfl
  | update server host =>
    simp only [query, hPhase, update, Option.some.injEq] at hQuery
    rw [← hQuery]
    split <;> rfl
  | status | lost | assign | done =>
    simp only [query, hPhase] at hQuery
    cases hQuery

theorem assignChannel_server {v : VoiceServerImpl} (id : Uuid) (ok : Bool) :
    ServerEffect v (v.assignChannel id ok).1 := by
  unfold VoiceServerImpl.assignChannel
  split
  · exact .kept
  · rename_i hVacant
    split
    · exact .started id hVacant
    · exact .kept

theorem request_servers {k : Nat} {call : Call} {sid : Uuid} {v : VoiceServerImpl} {ok : Bool}
    (hServer : s.servers[sid]? = some v) (hRequest : s.request k call sid v ok = some s') :
    ServersStep s s' := by
  unfold request at hRequest
  split at hRequest
  · split at hRequest
    · split at hRequest <;> cases hRequest <;> exact serversStep_same rfl
    · cases hRequest
  · split at hRequest <;> cases hRequest
    exact serversStep_setServer hServer (assignChannel_server call.channelId ok) rfl
  · split at hRequest <;> cases hRequest
    exact serversStep_setServer hServer (assignChannel_server call.channelId ok) rfl
  · cases hRequest

theorem forwarder_servers {sid : Uuid} {f : Nat}
    {next : VoiceServerImpl → Uuid → ForwarderState → Option VoiceServerImpl}
    (hNext : ∀ v id state v', v.forwarders[f]? = some (id, state) → next v id state = some v' →
      ServerEffect v v') (hStep : s.forwarder sid f next = some s') : ServersStep s s' := by
  obtain ⟨v, hServer, hBind⟩ := Option.bind_eq_some_iff.mp hStep
  obtain ⟨⟨id, state⟩, hForwarder, hMap⟩ := Option.bind_eq_some_iff.mp hBind
  obtain ⟨v', hNew, rfl⟩ := Option.map_eq_some_iff.mp hMap
  exact serversStep_setServer hServer (hNext v id state v' hForwarder hNew) rfl

theorem next_servers (hNext : s.next e = some s') : ServersStep s s' := by
  cases e with
  | tick millis | call cid | cleanupStale =>
    cases hNext
    exact serversStep_same rfl
  | createChannel cid =>
    simp only [next, Option.ite_none_left_eq_some, Option.some.injEq] at hNext
    obtain ⟨_, rfl⟩ := hNext
    exact serversStep_same rfl
  | serve sid url =>
    simp only [next, Option.ite_none_left_eq_some, Option.some.injEq] at hNext
    obtain ⟨_, rfl⟩ := hNext
    intro sid' v' hLookup
    rcases lookup_insert_iff.mp hLookup with ⟨rfl, rfl⟩ | ⟨_, hOld⟩
    · left
      constructor <;> simp
    · exact .inr ⟨v', hOld, .kept⟩
  | heartbeat sid =>
    obtain ⟨v, _, rfl⟩ := Option.map_eq_some_iff.mp hNext
    exact serversStep_same rfl
  | reassign k sid =>
    obtain ⟨call, _, hBind⟩ := Option.bind_eq_some_iff.mp hNext
    obtain ⟨v, _, hReassign⟩ := Option.bind_eq_some_iff.mp hBind
    unfold reassign at hReassign
    split at hReassign
    · split at hReassign <;> cases hReassign
      exact serversStep_same rfl
    · cases hReassign
  | query k pick =>
    obtain ⟨call, _, hQuery⟩ := Option.bind_eq_some_iff.mp hNext
    exact serversStep_same (query_servers hQuery)
  | request k sid ok =>
    obtain ⟨call, _, hBind⟩ := Option.bind_eq_some_iff.mp hNext
    obtain ⟨v, hServer, hRequest⟩ := Option.bind_eq_some_iff.mp hBind
    exact request_servers hServer hRequest
  | fail k =>
    obtain ⟨call, _, hFail⟩ := Option.bind_eq_some_iff.mp hNext
    split at hFail <;> cases hFail
    exact serversStep_same rfl
  | leaving sid f =>
    refine forwarder_servers (fun v id state v' hForwarder hNew => ?_) hNext
    cases state <;> cases hNew
    exact .left f id hForwarder
  | notified sid f =>
    refine forwarder_servers (fun v id state v' hForwarder hNew => ?_) hNext
    cases state <;> cases hNew
    exact .notified f id hForwarder
  | aborted sid f =>
    refine forwarder_servers (fun v id state v' hForwarder hNew => ?_) hNext
    cases state <;> cases hNew <;> exact .aborted f id _ (by simp) hForwarder
  | cleanup sid =>
    obtain ⟨v, hServer, hCleanup⟩ := Option.bind_eq_some_iff.mp hNext
    split at hCleanup
    · rename_i id rest hQueue
      cases hCleanup
      exact serversStep_setServer hServer (.cleaned id rest hQueue) rfl
    · cases hCleanup
  | unassign sid n =>
    obtain ⟨v, hServer, hMap⟩ := Option.bind_eq_some_iff.mp hNext
    obtain ⟨cid, _, rfl⟩ := Option.map_eq_some_iff.mp hMap
    exact serversStep_setServer hServer (.unassigned n) rfl

theorem servers_sound {es : List Event} {tr : List Empty} (hRun : Machine.run step new es = some (s, tr))
    (sid : Uuid) (v : VoiceServerImpl) (hServer : s.servers[sid]? = some v) : v.Sound := by
  refine Machine.run_invariant (I := fun s => ∀ sid v, s.servers[sid]? = some v → v.Sound)
    ?_ ?_ hRun sid v hServer
  · simp [new]
  · intro s₁ e s₂ o hSound hStep sid v' hServer
    obtain ⟨_, hNext, hEq⟩ := Option.map_eq_some_iff.mp hStep
    cases hEq
    rcases next_servers hNext sid v' hServer with hNew | ⟨v, hOld, hEffect⟩
    · exact hNew
    · exact (hSound sid v hOld).step hEffect

/-- When the registry executes a server's unassignment of a channel, and the server runs a forwarder
for it that was started after one that has ended, the channel stays assigned to the server. -/
def KeepsNewer (s : Hosting) (e : Event) : Prop :=
  ∀ (sid : Uuid) (n : Nat) (v : VoiceServerImpl) (cid : Uuid) (s' : Hosting) (f f' : Nat),
    e = .unassign sid n → s.servers[sid]? = some v → v.unassigning[n]? = some cid →
    s.next e = some s' → v.forwarders[f]? = some (cid, .ended) →
    v.forwarders[f']? = some (cid, .running) → f < f' → s'.db.assignedTo cid = some sid

/-- A server that unassigns a channel runs no forwarder for it when the registry gets to it. -/
def UnassignsIdle (s : Hosting) (e : Event) : Prop :=
  ∀ (sid : Uuid) (n : Nat) (v : VoiceServerImpl) (cid : Uuid), e = .unassign sid n →
    s.servers[sid]? = some v → v.unassigning[n]? = some cid → s.runs sid cid = false

theorem unassign_takes {sid cid : Uuid} {n : Nat} {v : VoiceServerImpl}
    (hServer : s.servers[sid]? = some v) (hTask : v.unassigning[n]? = some cid) :
    ∃ s', s.next (.unassign sid n) = some s' ∧ s'.db.assignedTo cid ≠ some sid := by
  refine ⟨_, by simp only [next, hServer, hTask, Option.bind_some, Option.map_some]; rfl, ?_⟩
  rw [Database.assignedTo_unassign]
  split
  · simp
  · rename_i hNot
    exact fun hAssigned => hNot ⟨rfl, hAssigned⟩

theorem UnassignsIdle.keepsNewer (h : s.UnassignsIdle e) : s.KeepsNewer e := by
  rintro sid n v cid s' f f' rfl hServer hTask _ _ hRunning _
  have hRuns : s.runs sid cid = true :=
    runs_eq_true_iff.mpr ⟨v, hServer, List.mem_of_getElem? hRunning⟩
  rw [h sid n v cid rfl hServer hTask] at hRuns
  cases hRuns

theorem KeepsNewer.unassignsIdle (h : s.KeepsNewer e)
    (hSound : ∀ (sid : Uuid) (v : VoiceServerImpl), s.servers[sid]? = some v → v.Sound) :
    s.UnassignsIdle e := by
  rintro sid n v cid rfl hServer hTask
  by_contra hRuns
  obtain ⟨w, hLookup, hMem⟩ := runs_eq_true_iff.mp (Bool.not_eq_false _ ▸ hRuns)
  cases hServer.symm.trans hLookup
  obtain ⟨f', hRunning⟩ := List.getElem?_of_mem hMem
  -- the forwarder that is unassigned has ended, and the running one came later
  obtain ⟨f, hEnded⟩ := (hSound sid v hServer).unassigning cid (List.mem_of_getElem? hTask)
  obtain ⟨s', hNext, hTaken⟩ := unassign_takes hServer hTask
  exact hTaken (h sid n v cid s' f f' rfl hServer hTask hNext hEnded hRunning
    ((hSound sid v hServer).older f f' cid hEnded hRunning))

/-- Along a run no delayed unassignment takes a channel from a server that runs it anew exactly when
each one is executed while its server runs no forwarder for the channel. -/
theorem keepsNewer_iff (es : List Event) (s : Hosting) (tr : List Empty)
    (hRun : Machine.run step new es = some (s, tr)) :
    Machine.Along step KeepsNewer new es ↔ Machine.Along step UnassignsIdle new es := by
  constructor
  · intro hKeeps
    exact hKeeps.imp hRun fun es₁ e s₁ s₂ tr₁ o hFirst _ hKeep =>
      hKeep.unassignsIdle (servers_sound hFirst)
  · exact fun hIdle => hIdle.mono fun _ _ h => h.keepsNewer

/-- The forwarder of the channel ends, and a call makes the same server host it again while the
unassignment is under way. -/
def hostedAgain : List Event :=
  hosted ++ [.leaving 1 0, .notified 1 0, .cleanup 1, .call 7, .query 1 0, .query 1 0,
    .request 1 1 true, .request 1 1 true]

theorem keepsNewer_iff_hostedAgain : ∃ s tr,
    Machine.run step new (hostedAgain ++ [.unassign 1 0]) = some (s, tr) ∧
      (Machine.Along step KeepsNewer new (hostedAgain ++ [.unassign 1 0]) ↔
        Machine.Along step UnassignsIdle new (hostedAgain ++ [.unassign 1 0])) := by
  obtain ⟨⟨s, tr⟩, hRun⟩ : ∃ last,
      Machine.run step new (hostedAgain ++ [Event.unassign 1 0]) = some last :=
    Option.isSome_iff_exists.mp (by decide)
  exact ⟨s, tr, hRun, keepsNewer_iff _ s tr hRun⟩

theorem not_keepsNewer : ¬ ∀ (es : List Event) (s : Hosting) (tr : List Empty),
    Machine.run step new es = some (s, tr) → Machine.Along step KeepsNewer new es := by
  intro hAll
  have hBefore : (Machine.run step new hostedAgain).map (fun last =>
      (last.1.servers[(1 : Uuid)]?.map fun v => (v.unassigning, v.forwarders),
        (step last.1 (Event.unassign 1 0)).isSome)) =
      some (some ([7], [(7, .ended), (7, .running)]), true) := by
    decide
  obtain ⟨⟨s, tr⟩, hRun, hState⟩ := Option.map_eq_some_iff.mp hBefore
  obtain ⟨hServers, hEnabled⟩ := Prod.mk.inj hState
  obtain ⟨v, hServer, hFields⟩ := Option.map_eq_some_iff.mp hServers
  obtain ⟨hTasks, hForwarders⟩ := Prod.mk.inj hFields
  have hTask : v.unassigning[0]? = some 7 := by rw [hTasks]; rfl
  obtain ⟨⟨s₂, o⟩, hStep⟩ := Option.isSome_iff_exists.mp hEnabled
  have hLast : Machine.run step new (hostedAgain ++ [Event.unassign 1 0]) = some (s₂, tr ++ o) :=
    Machine.run_snoc_iff.mpr ⟨s, tr, o, hRun, hStep, rfl⟩
  obtain ⟨s', hNext, hTaken⟩ := unassign_takes hServer hTask
  exact hTaken ((hAll _ s₂ _ hLast).last hRun 1 0 v 7 s' 0 1 rfl hServer hTask hNext
    (by rw [hForwarders]; rfl) (by rw [hForwarders]; rfl) (by decide))

end Hosting

end Voices.Registry
