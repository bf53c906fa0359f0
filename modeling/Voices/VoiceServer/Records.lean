import Voices.VoiceServer.Tables

/-!
# Connection records and voice tasks

The record of a connection should live as long as its task is in the task set.
Reaping removes the record only while the client still has an entry in
`client_id_to_src_id`; a client that opened twice and whose later connection
ended first leaves the record of the earlier one behind.
-/

namespace Voices.VoiceServer

open Semantics Std

namespace VoiceChannel

/-- The keys of `connections` are the source ids of the tasks that are not yet reaped. -/
def RecordsMatch (s : VoiceChannel) : Prop :=
  ∀ k, (∃ conn, s.forwarder.connections[k]? = some conn) ↔ ∃ t ∈ s.forwarder.tasks, t.srcId = k

/-- The client of the task that this event reaps has an entry in `client_id_to_src_id`. -/
def ReapsKnown (s : VoiceChannel) (e : Event) : Prop :=
  ∀ index task, e = .reap index → s.forwarder.tasks[index]? = some task →
    s.forwarder.clientIdToSrcId[task.clientId]? ≠ none

variable {env : Env} {s s' : VoiceChannel} {e : Event} {o : List Output}

theorem Wf.handle_eq (hWf : s.Wf) (hDistinct : s.Distinct) {t t' : VoiceTask}
    (ht : t ∈ s.forwarder.tasks) (ht' : t' ∈ s.forwarder.tasks) (hSource : t.srcId = t'.srcId) :
    t.handle = t'.handle := by
  obtain ⟨c, hTask, _, hc⟩ := hWf.handles t ht
  obtain ⟨c', hTask', _, hc'⟩ := hWf.handles t' ht'
  exact hDistinct _ _ c c' hTask hTask' (by rw [hc, hc', hSource])

theorem Wf.mem_eraseIdx (hWf : s.Wf) (hDistinct : s.Distinct) {index : Nat} {task : VoiceTask}
    (hTask : s.forwarder.tasks[index]? = some task) (k : UInt32) :
    (∃ t ∈ s.forwarder.tasks.eraseIdx index, t.srcId = k) ↔
      (∃ t ∈ s.forwarder.tasks, t.srcId = k) ∧ task.srcId ≠ k := by
  have hMem : task ∈ s.forwarder.tasks := List.mem_of_getElem? hTask
  constructor
  · rintro ⟨t, ht, rfl⟩
    obtain ⟨j, hNe, hj⟩ := List.mem_eraseIdx_iff_getElem?.mp ht
    have htMem : t ∈ s.forwarder.tasks := List.mem_of_getElem? hj
    refine ⟨⟨t, htMem, rfl⟩, fun hSource => hNe ?_⟩
    have hHandle : task.handle = t.handle := hWf.handle_eq hDistinct hMem htMem hSource
    have hLt : j < (s.forwarder.tasks.map VoiceTask.handle).length := by
      simpa using (List.getElem?_eq_some_iff.mp hj).1
    refine (List.getElem?_inj hLt hWf.nodup).mp ?_
    rw [List.getElem?_map, List.getElem?_map, hj, hTask, Option.map_some, Option.map_some, hHandle]
  · rintro ⟨⟨t, ht, rfl⟩, hNe⟩
    obtain ⟨j, hj⟩ := List.mem_iff_getElem?.mp ht
    refine ⟨t, List.mem_eraseIdx_iff_getElem?.mpr ⟨j, ?_, hj⟩, rfl⟩
    rintro rfl
    exact hNe (congrArg VoiceTask.srcId (Option.some.inj (hTask.symm.trans hj)))

theorem RecordsMatch.bind (hMatch : s.RecordsMatch) {srcId : UInt32} {conn : Conn}
    (hConn : s.forwarder.connections[srcId]? = some conn) (addr : SocketAddr) :
    (s.bind srcId conn addr).RecordsMatch := by
  intro k
  rw [bind_connection, bind_tasks, ← hMatch k]
  by_cases hKey : srcId = k
  · subst hKey
    simp [hConn]
  · simp [hKey]

theorem RecordsMatch.step (hMatch : s.RecordsMatch) (hWf : s.Wf) (hDistinct : s'.Distinct)
    (hKnown : s.ReapsKnown e) (h : Effect env s e s' o) : s'.RecordsMatch := by
  intro k
  have hBefore : s.Distinct := hDistinct.before h.tasks
  cases h with
  | reaped index task hAwait hTask hEnded =>
    have hClient := hKnown index task rfl hTask
    rw [turn_forwarder, reaped_connections, reaped_tasks,
      hWf.mem_eraseIdx hBefore hTask, ← hMatch k]
    by_cases hKey : task.srcId = k <;> simp [hKey, hClient]
  | opened clientId userName draw hAwait =>
    rw [turn_forwarder, opened_connection, opened_tasks]
    by_cases hKey : draw.sourceId = k
    · simp [hKey]
    · simp [hKey, hMatch k]
  | bound clientId addr draw srcId conn c hAwait hClient hConn => exact hMatch.bind hConn addr k
  | unbound clientId addr draw srcId conn hAwait hClient hConn => exact hMatch.bind hConn addr k
  | undone | missing | ended => simp [panic, dropped]
  | _ => exact hMatch k

/-- Reaping a task of a client without an entry leaves its record behind. -/
theorem RecordsMatch.reapsKnown (hMatch : s.RecordsMatch) (hWf : s.Wf) (hDistinct : s.Distinct)
    (hStep : VoiceChannel.step env s e = some (s', o)) (hMatch' : s'.RecordsMatch) : s.ReapsKnown e := by
  rintro index task rfl hTask hClient
  obtain ⟨task', hAwait, hTask', hEnded, rfl, rfl⟩ := reap_step hStep
  cases hTask.symm.trans hTask'
  obtain ⟨conn, hConn⟩ := (hMatch task.srcId).mpr ⟨task, List.mem_of_getElem? hTask, rfl⟩
  have hLeft : ∃ conn, (s.reaped index task).turn.forwarder.connections[task.srcId]? = some conn := by
    rw [turn_forwarder, reaped_connections]
    simp [hClient, hConn]
  have hMem := (hMatch' task.srcId).mp hLeft
  rw [turn_forwarder, reaped_tasks, hWf.mem_eraseIdx hDistinct hTask] at hMem
  exact hMem.2 rfl

theorem new_recordsMatch (roomId : Uuid) (now : Instant) : (new roomId now).RecordsMatch := by
  simp [RecordsMatch, new]

theorem recordsMatch_along {roomId : Uuid} {now : Instant} {es : List Event} {tr : List Output}
    (hAlong : Machine.Along (VoiceChannel.step env) ReapsKnown (new roomId now) es)
    (hRun : Machine.run (VoiceChannel.step env) (new roomId now) es = some (s, tr))
    (hDistinct : s.Distinct) : s.RecordsMatch := by
  refine (Machine.run_induction_along (P := fun s _ => s.Wf ∧ (s.Distinct → s.RecordsMatch))
    ⟨new_wf roomId now, fun _ => new_recordsMatch roomId now⟩ ?_ hAlong hRun).2 hDistinct
  rintro s₁ _ e s₂ o ⟨hWf, hMatch⟩ hKnown hStep
  have hEffect := step_effect hStep
  exact ⟨hWf.step hEffect, fun hDistinct =>
    (hMatch (hDistinct.before hEffect.tasks)).step hWf hDistinct hKnown hEffect⟩

/-- In a run with distinct source ids the records match the tasks between any two events exactly
when every task that is reaped belongs to a client that still has an entry. -/
theorem recordsMatch_iff (env : Env) (roomId : Uuid) (now : Instant) (es : List Event)
    (s : VoiceChannel) (tr : List Output)
    (hRun : Machine.run (VoiceChannel.step env) (new roomId now) es = some (s, tr))
    (hDistinct : s.Distinct) :
    (∀ es₁ es₂ s₁ tr₁, es = es₁ ++ es₂ →
        Machine.run (VoiceChannel.step env) (new roomId now) es₁ = some (s₁, tr₁) →
        s₁.await = .event → s₁.RecordsMatch) ↔
      Machine.Along (VoiceChannel.step env) ReapsKnown (new roomId now) es := by
  constructor
  · intro hMatch
    refine Machine.along_of_prefix hRun fun es₁ e es₂ s₁ s₂ tr₁ o hEq hFirst hStep => ?_
    rintro index task rfl hTask
    have hSecond : Machine.run (VoiceChannel.step env) (new roomId now) (es₁ ++ [Event.reap index]) =
        some (s₂, tr₁ ++ o) := Machine.run_snoc_iff.mpr ⟨s₁, tr₁, o, hFirst, hStep, rfl⟩
    obtain ⟨_, hAwait, _, _, hTurn, _⟩ := reap_step hStep
    have hBefore : s₁.RecordsMatch := hMatch es₁ _ s₁ tr₁ hEq hFirst hAwait
    have hAfter : s₂.RecordsMatch := by
      refine hMatch (es₁ ++ [Event.reap index]) es₂ s₂ _ ?_ hSecond (by rw [hTurn, turn_await])
      rw [hEq, List.append_assoc, List.singleton_append]
    have hLast : s₁.Distinct := by
      rw [hEq, Machine.run_append_iff] at hRun
      obtain ⟨s₃, _, _, hFirst', hRest, _⟩ := hRun
      cases hFirst.symm.trans hFirst'
      exact hDistinct.of_run hRest
    exact hBefore.reapsKnown (wf hFirst) hLast hStep hAfter index task rfl hTask
  · rintro hAlong es₁ es₂ s₁ tr₁ rfl hFirst _
    obtain ⟨s₃, _, _, hFirst', hRest, _⟩ := Machine.run_append_iff.mp hRun
    cases hFirst.symm.trans hFirst'
    exact recordsMatch_along hAlong.init hFirst (hDistinct.of_run hRest)

/-- A client opens twice, and its later connection times out first. -/
def reopened : List Event :=
  [.control (.openConnection 1 "a") ⟨10, []⟩, .control (.openConnection 1 "a") ⟨11, []⟩,
    .tick 15000, .task 1 .deadline, .reap 1, .task 0 .deadline, .reap 0]

theorem recordsMatch_iff_reopened : ∃ s tr,
    Machine.run (VoiceChannel.step .bare) (new 7 0) reopened = some (s, tr) ∧ s.Distinct ∧
      ((∀ es₁ es₂ s₁ tr₁, reopened = es₁ ++ es₂ →
          Machine.run (VoiceChannel.step .bare) (new 7 0) es₁ = some (s₁, tr₁) →
          s₁.await = .event → s₁.RecordsMatch) ↔
        Machine.Along (VoiceChannel.step .bare) ReapsKnown (new 7 0) reopened) := by
  have hIds : (Machine.run (VoiceChannel.step .bare) (new 7 0) reopened).map
      (fun last => last.1.spawned.map VoiceConnection.sourceId) = some [10, 11] := by decide
  obtain ⟨⟨s, tr⟩, hRun, hSpawned⟩ := Option.map_eq_some_iff.mp hIds
  have hDistinct : s.Distinct := distinct_of_nodup (by rw [hSpawned]; decide)
  exact ⟨s, tr, hRun, hDistinct, recordsMatch_iff .bare 7 0 reopened s tr hRun hDistinct⟩

/-- The record of source id 10 stays when its task is reaped. -/
theorem not_recordsMatch : ¬ ∀ (env : Env) (roomId : Uuid) (now : Instant) (es : List Event)
    (s : VoiceChannel) (tr : List Output),
    Machine.run (VoiceChannel.step env) (new roomId now) es = some (s, tr) → s.Distinct →
    s.await = .event → s.RecordsMatch := by
  intro hAll
  have hLast : (Machine.run (VoiceChannel.step .bare) (new 7 0) reopened).map (fun last =>
      (last.1.spawned.map VoiceConnection.sourceId, decide (last.1.await = .event),
        last.1.forwarder.connections[(10 : UInt32)]?.isSome, last.1.forwarder.tasks)) =
      some ([10, 11], true, true, []) := by
    decide
  obtain ⟨⟨s, tr⟩, hRun, hState⟩ := Option.map_eq_some_iff.mp hLast
  simp only [Prod.mk.injEq, decide_eq_true_eq] at hState
  obtain ⟨hSpawned, hAwait, hRecord, hTasks⟩ := hState
  have hDistinct : s.Distinct := distinct_of_nodup (by rw [hSpawned]; decide)
  have hMatch := hAll .bare 7 0 reopened s tr hRun hDistinct hAwait 10
  rw [hTasks] at hMatch
  obtain ⟨t, hMem, _⟩ := hMatch.mp (Option.isSome_iff_exists.mp hRecord)
  cases hMem

end VoiceChannel

end Voices.VoiceServer
