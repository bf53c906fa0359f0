import Voices.VoiceServer.Tables

/-!
# Drawn source ids

`VoiceConnection::start` draws the source id of a connection at random, and both
tables of the forwarder take it as a unique key. As long as no drawn id is in use,
the index by client leads to the client's own records, and the lookups that the
forwarder does not check cannot fail.
-/

namespace Voices.VoiceServer

open Semantics Std

def Event.drawn : Event → Option UInt32
  | .control (.openConnection _ _) draw => some draw.sourceId
  | _ => none

namespace VoiceChannel

variable {env : Env} {s s' : VoiceChannel} {e : Event} {o : List Output} {clientId : Uuid}
  {userName : String} {draw : Draw}

instance (s : VoiceChannel) (k : UInt32) : Decidable (s.Unused k) :=
  inferInstanceAs (Decidable (_ ∧ ∀ t ∈ s.forwarder.tasks, _))

/-- A source id that is drawn now is that of no record and of no unreaped task. -/
def Fresh (s : VoiceChannel) (e : Event) : Prop := ∀ k ∈ e.drawn, s.Unused k

instance (s : VoiceChannel) (e : Event) : Decidable (s.Fresh e) := Option.decidableForallMem e.drawn

/-- A source id that is drawn now is that of no running task. -/
def DrawsUnused (s : VoiceChannel) (e : Event) : Prop :=
  ∀ k ∈ e.drawn, ∀ c ∈ s.spawned, c.running = true → c.sourceId ≠ k

theorem opened_length (clientId : Uuid) (userName : String) (draw : Draw) :
    (s.opened clientId userName draw).spawned.length = s.spawned.length + 1 := by
  simp [opened, VoiceConnection.start]

theorem open_drawn (h : Effect env s e s' o)
    (hTasks : s'.spawned = (s.opened clientId userName draw).spawned) :
    e.drawn = some draw.sourceId := by
  have hLength : s'.spawned.length = s.spawned.length + 1 := by rw [hTasks, opened_length]
  cases h with
  | opened clientId' userName' draw' hAwait =>
    have hNew : (s.opened clientId' userName' draw').spawned[s.spawned.length]? =
        some (s.fresh clientId' draw') := opened_task rfl
    rw [← turn_spawned, opened_task hTasks] at hNew
    have hSource : draw.sourceId = draw'.sourceId :=
      congrArg VoiceConnection.sourceId (Option.some.inj hNew)
    rw [hSource, Event.drawn]
  | _ => simp at hLength

theorem Fresh.unused (hFresh : s.Fresh e) (h : Effect env s e s' o)
    (hTasks : s'.spawned = (s.opened clientId userName draw).spawned) : s.Unused draw.sourceId :=
  hFresh draw.sourceId (open_drawn h hTasks)

theorem Matched.step (hMatched : s.Matched) (hFresh : s.Fresh e)
    (h : Effect env s e s' o) : s'.Matched := by
  intro t hMem conn hConn
  cases h.tables with
  | kept hTables => exact hMatched t (hTables ▸ hMem) conn (hTables ▸ hConn)
  | dropped hTables hHeld => simp [hTables, dropped] at hMem
  | opened clientId userName draw hTables hTasks =>
    have hUnused := hFresh.unused h hTasks
    rw [hTables, opened_connection] at hConn
    rw [hTables, opened_tasks] at hMem
    rcases List.mem_append.mp hMem with hOld | hNew
    · rw [if_neg (hUnused.2 t hOld).symm] at hConn
      exact hMatched t hOld conn hConn
    · obtain rfl := List.mem_singleton.mp hNew
      rw [if_pos rfl] at hConn
      cases hConn
      rfl
  | bound srcId old addr hFound hTables =>
    rw [hTables, bind_connection] at hConn
    rw [hTables, bind_tasks] at hMem
    split at hConn
    · rename_i hKey
      cases hConn
      exact hMatched t hMem old (hKey ▸ hFound)
    · exact hMatched t hMem conn hConn
  | reaped index task hTask hEnded hTables hTasks =>
    rw [hTables] at hConn hMem
    exact hMatched t (List.mem_of_mem_eraseIdx hMem) conn (reaped_connection hConn)

structure OthersKept (s s' : VoiceChannel) (clientId : Uuid) : Prop where
  index : ∀ id, id ≠ clientId →
    s'.forwarder.clientIdToSrcId[id]? = s.forwarder.clientIdToSrcId[id]?
  records : ∀ (k : UInt32) (conn : Conn) (c : VoiceConnection),
    s.forwarder.connections[k]? = some conn → s.spawned[conn.tx]? = some c → c.clientId ≠ clientId →
    s'.forwarder.connections[k]? = some conn

/-- The client index and the table of connections agree, and keep doing so. -/
structure Consistent (env : Env) (s : VoiceChannel) : Prop where
  owned : s.Owned
  reaping : ∀ index task s' o, s.forwarder.tasks[index]? = some task →
    step env s (.reap index) = some (s', o) → s.OthersKept s' task.clientId
  total : ∀ ctl draw s' o, step env s (.control ctl draw) = some (s', o) → .panicked ∉ o

theorem Matched.reaping (hMatched : s.Matched) (hWf : s.Wf) {index : Nat} {task : VoiceTask}
    (hTask : s.forwarder.tasks[index]? = some task)
    (hStep : VoiceChannel.step env s (.reap index) = some (s', o)) :
    s.OthersKept s' task.clientId := by
  obtain ⟨task', _, hTask', _, rfl, _⟩ := reap_step hStep
  cases hTask.symm.trans hTask'
  constructor
  · intro id hNe
    rw [turn_forwarder, reaped_client, if_neg]
    exact fun hSame => hNe hSame.1.symm
  · intro k conn c hConn hOwner hOther
    rw [turn_forwarder, reaped_connections, if_neg, hConn]
    rintro ⟨rfl, _⟩
    -- the record would be that of the task itself
    obtain ⟨d, hHandle, hClient, _⟩ := hWf.handles task (List.mem_of_getElem? hTask)
    rw [← hMatched task (List.mem_of_getElem? hTask) conn hConn, hOwner] at hHandle
    cases hHandle
    exact hOther hClient

theorem Owned.total (hOwned : s.Owned) {ctl : ChannelCtl}
    (hStep : VoiceChannel.step env s (.control ctl draw) = some (s', o)) : .panicked ∉ o := by
  intro hPanicked
  cases step_effect hStep with
  | turned _ output result _ _ hQuiet =>
    rcases List.mem_append.mp hPanicked with hMem | hMem
    · cases hQuiet _ hMem
    · simp at hMem
  | missing _ _ clientId srcId _ hClient hConn =>
    obtain ⟨conn, _, hSome, _⟩ := hOwned clientId srcId hClient
    cases hConn.symm.trans hSome
  | _ => simp at hPanicked

/-- In every run whose draws are fresh the client index and the connection table agree in every
state, reaping a task touches its own client only, and no lookup of a request fails. -/
theorem consistent_along (env : Env) (roomId : Uuid) (now : Instant) (es : List Event)
    (s : VoiceChannel) (tr : List Output)
    (hRun : Machine.run (VoiceChannel.step env) (new roomId now) es = some (s, tr))
    (hFresh : Machine.Along (VoiceChannel.step env) Fresh (new roomId now) es) :
    s.Consistent env := by
  have hAll : s.Wf ∧ s.Matched ∧ s.Owned := by
    refine Machine.run_induction_along (P := fun s _ => s.Wf ∧ s.Matched ∧ s.Owned)
      ⟨new_wf roomId now, by simp [Matched, new], new_owned roomId now⟩ ?_ hFresh hRun
    rintro s₁ _ e s₂ o ⟨hWf, hMatched, hOwned⟩ hFresh hStep
    have hEffect := step_effect hStep
    exact ⟨hWf.step hEffect, hMatched.step hFresh hEffect,
      hOwned.later hWf hMatched (fun _ _ _ => hFresh.unused hEffect) hEffect⟩
  obtain ⟨hWf, hMatched, hOwned⟩ := hAll
  exact ⟨hOwned, fun _ _ _ _ => hMatched.reaping hWf, fun _ _ _ _ => hOwned.total⟩

/-- A client opens twice, and its first connection times out and is reaped. -/
def timedOut : List Event :=
  [.control (.openConnection 1 "a") ⟨10, []⟩, .tick 1000, .control (.openConnection 1 "a") ⟨11, []⟩,
    .tick 14000, .task 0 .deadline, .reap 0]

theorem consistent_along_timedOut : ∃ s tr,
    Machine.run (VoiceChannel.step .bare) (new 7 0) timedOut = some (s, tr) ∧ s.Consistent .bare := by
  have hEnabled : (Machine.run (VoiceChannel.step .bare) (new 7 0) timedOut).isSome = true := by decide
  obtain ⟨⟨s, tr⟩, hRun⟩ := Option.isSome_iff_exists.mp hEnabled
  exact ⟨s, tr, hRun, consistent_along .bare 7 0 timedOut s tr hRun (by decide)⟩

/-- Running tasks with the same source id are the same task. -/
def Unique (s : VoiceChannel) : Prop :=
  ∀ (i j : TaskId) (c d : VoiceConnection), s.spawned[i]? = some c → s.spawned[j]? = some d →
    c.running = true → d.running = true → c.sourceId = d.sourceId → i = j

/-- A request to open a connection does not replace the record of another client's running one. -/
def SparesOthers (s : VoiceChannel) (e : Event) : Prop :=
  ∀ (clientId : Uuid) (userName : String) (draw : Draw) (conn : Conn) (c : VoiceConnection),
    e = .control (.openConnection clientId userName) draw →
    s.forwarder.connections[draw.sourceId]? = some conn → s.spawned[conn.tx]? = some c →
    c.running = true → c.clientId = clientId

theorem DrawsUnused.sparesOthers (hUnused : s.DrawsUnused e) (hWf : s.Wf) : s.SparesOthers e := by
  rintro clientId userName draw conn c rfl hConn hTask hRunning
  obtain ⟨d, hRecord, hKey⟩ := (hWf.records draw.sourceId conn hConn).task
  cases hRecord.symm.trans hTask
  exact absurd hKey (hUnused draw.sourceId rfl c (List.mem_of_getElem? hTask) hRunning)

theorem running_before (h : TasksEffect env s s') {i : TaskId} {c : VoiceConnection}
    (hTask : s'.spawned[i]? = some c) (hRunning : c.running = true) :
    (∃ d, s.spawned[i]? = some d ∧ d.running = true ∧ d.sourceId = c.sourceId) ∨
      ∃ clientId userName draw, s'.spawned = (s.opened clientId userName draw).spawned ∧
        i = s.spawned.length ∧ c.sourceId = draw.sourceId := by
  cases h with
  | opened clientId userName draw hTables hTasks =>
    rcases opened_lookup (hTasks ▸ hTask) with hOld | ⟨hNew, rfl⟩
    · exact .inl ⟨c, hOld, hRunning, rfl⟩
    · exact .inr ⟨clientId, userName, draw, hTasks, hNew, rfl⟩
  | kept hTasks => exact .inl ⟨c, hTasks ▸ hTask, hRunning, rfl⟩
  | polled tx old outcome hOld hPoll hTasks =>
    rcases (getElem?_set_iff hOld).mp (hTasks ▸ hTask) with ⟨rfl, rfl⟩ | ⟨_, hSome⟩
    · exact .inl ⟨old, hOld, hPoll.running, hPoll.sourceId.symm⟩
    · exact .inl ⟨c, hSome, hRunning, rfl⟩
  | queued tx old msgs requests hOld hRunningOld hTasks =>
    rcases (getElem?_set_iff hOld).mp (hTasks ▸ hTask) with ⟨rfl, rfl⟩ | ⟨_, hSome⟩
    · exact .inl ⟨old, hOld, hRunningOld, rfl⟩
    · exact .inl ⟨c, hSome, hRunning, rfl⟩

theorem Unique.step (hUnique : s.Unique) (hUnused : s.DrawsUnused e) (h : Effect env s e s' o) :
    s'.Unique := by
  -- the task spawned now has a source id that no task running before has
  have hNew (draw : Draw) (hDrawn : e.drawn = some draw.sourceId) (i : TaskId) (d : VoiceConnection)
      (hTask : s.spawned[i]? = some d) (hRunning : d.running = true) :
      d.sourceId ≠ draw.sourceId :=
    hUnused draw.sourceId hDrawn d (List.mem_of_getElem? hTask) hRunning
  intro i j c d hc hd hRunningC hRunningD hEq
  rcases running_before h.tasks hc hRunningC with
    ⟨c₀, hc₀, hRunC, hSourceC⟩ | ⟨_, _, draw, hTasks, rfl, hSourceC⟩ <;>
  rcases running_before h.tasks hd hRunningD with
    ⟨d₀, hd₀, hRunD, hSourceD⟩ | ⟨_, _, draw', hTasks', rfl, hSourceD⟩
  · exact hUnique i j c₀ d₀ hc₀ hd₀ hRunC hRunD (by rw [hSourceC, hSourceD, hEq])
  · exact absurd (by rw [hSourceC, hEq, hSourceD]) (hNew draw' (open_drawn h hTasks') i c₀ hc₀ hRunC)
  · exact absurd (by rw [hSourceD, ← hEq, hSourceC]) (hNew draw (open_drawn h hTasks) j d₀ hd₀ hRunD)
  · rfl

/-- After a draw of a source id in use two running tasks have it. -/
theorem Unique.drawsUnused (hUnique : s'.Unique)
    (hStep : VoiceChannel.step env s e = some (s', o)) : s.DrawsUnused e := by
  intro k hDrawn c hMem hRunning hSource
  obtain ⟨i, hLt, rfl⟩ := List.mem_iff_getElem.mp hMem
  have hTask : s.spawned[i]? = some s.spawned[i] := List.getElem?_eq_getElem hLt
  cases e with
  | control ctl draw =>
    cases ctl with
    | openConnection clientId userName =>
      cases hDrawn
      obtain ⟨_, hEq⟩ := select_eq_some_iff.mp hStep
      have hTasks : s'.spawned = (s.opened clientId userName draw).spawned :=
        congrArg (fun r => r.1.spawned) hEq
      have hOld : s'.spawned[i]? = some s.spawned[i] := by
        rw [hTasks, ← hTask]
        exact List.getElem?_append_left hLt
      have hSame := hUnique i s.spawned.length _ _ hOld (opened_task hTasks) hRunning rfl hSource
      exact Nat.ne_of_lt hLt hSame
    | _ => cases hDrawn
  | _ => cases hDrawn

theorem unique_along {roomId : Uuid} {now : Instant} {es : List Event} {tr : List Output}
    (hRun : Machine.run (VoiceChannel.step env) (new roomId now) es = some (s, tr))
    (hUnused : Machine.Along (VoiceChannel.step env) DrawsUnused (new roomId now) es) : s.Unique := by
  refine Machine.run_induction_along (P := fun s _ => s.Unique) ?_ ?_ hUnused hRun
  · simp [Unique, new]
  · exact fun s₁ _ e s₂ o hUnique hUnused hStep => hUnique.step hUnused (step_effect hStep)

/-- The running tasks have different source ids in every state of a run, and no request to open a
connection replaces another client's running one, exactly when no draw repeats the source id of a
running task. -/
theorem unique_iff (env : Env) (roomId : Uuid) (now : Instant) (es : List Event) (s : VoiceChannel)
    (tr : List Output)
    (hRun : Machine.run (VoiceChannel.step env) (new roomId now) es = some (s, tr)) :
    ((∀ es₁ es₂ s₁ tr₁, es = es₁ ++ es₂ →
        Machine.run (VoiceChannel.step env) (new roomId now) es₁ = some (s₁, tr₁) → s₁.Unique) ∧
      Machine.Along (VoiceChannel.step env) SparesOthers (new roomId now) es) ↔
      Machine.Along (VoiceChannel.step env) DrawsUnused (new roomId now) es := by
  constructor
  · rintro ⟨hUnique, _⟩
    refine Machine.along_of_prefix hRun fun es₁ e es₂ s₁ s₂ tr₁ o hEq hFirst hStep => ?_
    refine (hUnique (es₁ ++ [e]) es₂ s₂ (tr₁ ++ o) ?_ ?_).drawsUnused hStep
    · rw [hEq, List.append_assoc, List.singleton_append]
    · exact Machine.run_snoc_iff.mpr ⟨s₁, tr₁, o, hFirst, hStep, rfl⟩
  · intro hUnused
    constructor
    · rintro es₁ es₂ s₁ tr₁ rfl hFirst
      exact unique_along hFirst hUnused.init
    · exact hUnused.imp hRun fun es₁ e s₁ s₂ tr₁ o hFirst _ hDraws => hDraws.sparesOthers (wf hFirst)

/-- The same source id is drawn for two clients. -/
def collided : List Event :=
  [.control (.openConnection 1 "a") ⟨10, []⟩, .control (.openConnection 2 "b") ⟨10, []⟩]

theorem unique_iff_collided : ∃ s tr,
    Machine.run (VoiceChannel.step .bare) (new 7 0) collided = some (s, tr) ∧
      (((∀ es₁ es₂ s₁ tr₁, collided = es₁ ++ es₂ →
          Machine.run (VoiceChannel.step .bare) (new 7 0) es₁ = some (s₁, tr₁) → s₁.Unique) ∧
        Machine.Along (VoiceChannel.step .bare) SparesOthers (new 7 0) collided) ↔
        Machine.Along (VoiceChannel.step .bare) DrawsUnused (new 7 0) collided) := by
  have hEnabled : (Machine.run (VoiceChannel.step .bare) (new 7 0) collided).isSome = true := by decide
  obtain ⟨⟨s, tr⟩, hRun⟩ := Option.isSome_iff_exists.mp hEnabled
  exact ⟨s, tr, hRun, unique_iff .bare 7 0 collided s tr hRun⟩

theorem not_unique : ¬ ∀ (env : Env) (roomId : Uuid) (now : Instant) (es : List Event)
    (s : VoiceChannel) (tr : List Output),
    Machine.run (VoiceChannel.step env) (new roomId now) es = some (s, tr) →
    s.Unique ∧ Machine.Along (VoiceChannel.step env) SparesOthers (new roomId now) es := by
  intro hAll
  have hLast : (Machine.run (VoiceChannel.step .bare) (new 7 0) collided).map (fun last =>
      last.1.spawned.map fun c => (c.sourceId, c.running)) = some [(10, true), (10, true)] := by
    decide
  obtain ⟨⟨s, tr⟩, hRun, hState⟩ := Option.map_eq_some_iff.mp hLast
  have hTask (i : TaskId) (hLt : i < 2) :
      ∃ c, s.spawned[i]? = some c ∧ c.sourceId = 10 ∧ c.running = true := by
    have hEntry := congrArg (·[i]?) hState
    simp only [List.getElem?_map] at hEntry
    rcases Nat.le_one_iff_eq_zero_or_eq_one.mp (Nat.le_of_lt_succ hLt) with rfl | rfl <;>
    · obtain ⟨c, hTask, hFields⟩ := Option.map_eq_some_iff.mp hEntry
      exact ⟨c, hTask, (Prod.mk.inj hFields).1, (Prod.mk.inj hFields).2⟩
  obtain ⟨c, hc, hSourceC, hRunC⟩ := hTask 0 (by decide)
  obtain ⟨d, hd, hSourceD, hRunD⟩ := hTask 1 (by decide)
  have hSame := (hAll .bare 7 0 collided s tr hRun).1 0 1 c d hc hd hRunC hRunD
    (hSourceC.trans hSourceD.symm)
  exact absurd hSame (by decide)

/-- When the first of the two is reaped, the record of the second one goes with it, and the lookup
of its next establish fails. -/
example : (Machine.run (VoiceChannel.step .bare) (new 7 0)
    (collided ++ [.tick 15000, .task 0 .deadline, .reap 0,
      .control (.establish 2 ⟨.v4 1, 9⟩) ⟨0, []⟩])).map (fun last => last.2.getLast?) =
    some (some .panicked) := by
  decide

end VoiceChannel

end Voices.VoiceServer
