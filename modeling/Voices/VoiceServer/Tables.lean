import Voices.Semantics.Run
import Voices.VoiceServer.ChannelSteps

/-!
# The tables of the forwarder along a run

The forwarder names the same task in up to four places: by source id and by
client id in its two tables, by join handle in its task set, and in the queue
of the task it waits for. `Wf` says how these agree in every state that a run
reaches, and `Distinct` that no source id was drawn twice.
-/

namespace Voices.VoiceServer

open Semantics Std

/-- What a task never changes. -/
structure VoiceConnection.Same (c c' : VoiceConnection) : Prop where
  sourceId : c'.sourceId = c.sourceId
  clientId : c'.clientId = c.clientId
  cryptKey : c'.cryptKey = c.cryptKey

def VoiceChannel.held (s : VoiceChannel) : Bool :=
  match s.await with
  | .ended => false
  | .panicked => false
  | _ => true

inductive TasksEffect (env : Env) (s s' : VoiceChannel) : Prop where
  | kept (hTasks : s'.spawned = s.spawned)
  | polled (tx : TaskId) (c : VoiceConnection) (outcome : Outcome) (hTask : s.spawned[tx]? = some c)
      (hPoll : PollEffect env c s.now s.voice outcome)
      (hTasks : s'.spawned = s.spawned.set tx outcome.task)
  | queued (tx : TaskId) (c : VoiceConnection) (msgs : List InternalMsg)
      (requests : List ControlRequest) (hTask : s.spawned[tx]? = some c) (hRunning : c.running = true)
      (hTasks : s'.spawned = s.spawned.set tx { c with
        msgRx := c.msgRx ++ msgs, controlChan := c.controlChan ++ requests })
  | opened (clientId : Uuid) (userName : String) (draw : Draw)
      (hTables : s'.forwarder = (s.opened clientId userName draw).forwarder)
      (hTasks : s'.spawned = (s.opened clientId userName draw).spawned)

inductive TablesEffect (s s' : VoiceChannel) : Prop where
  | kept (hTables : s'.forwarder = s.forwarder)
  | dropped (hTables : s'.forwarder = s.dropped.forwarder) (hHeld : s'.held = false)
  | opened (clientId : Uuid) (userName : String) (draw : Draw)
      (hTables : s'.forwarder = (s.opened clientId userName draw).forwarder)
      (hTasks : s'.spawned = (s.opened clientId userName draw).spawned)
  | bound (srcId : UInt32) (conn : Conn) (addr : SocketAddr)
      (hConn : s.forwarder.connections[srcId]? = some conn)
      (hTables : s'.forwarder = (s.bind srcId conn addr).forwarder)
  | reaped (index : Nat) (task : VoiceTask) (hTask : s.forwarder.tasks[index]? = some task)
      (hEnded : s.taskRunning task.handle = false)
      (hTables : s'.forwarder = (s.reaped index task).forwarder) (hTasks : s'.spawned = s.spawned)

namespace Effect

variable {env : Env} {s s' : VoiceChannel} {e : Event} {o : List Output}

theorem tasks (h : Effect env s e s' o) : TasksEffect env s s' := by
  cases h with
  | task tx branch c outcome hTask hPoll => exact .polled tx c outcome hTask hPoll rfl
  | pushed e tx sender msg c hAccepts hTask hRunning hRoom =>
    exact .queued tx c [msg] [] hTask hRunning (by simp)
  | bound clientId addr draw srcId conn c hAwait hClient hConn hTask hRunning =>
    exact .queued conn.ctl.tx c [] [.init addr] hTask hRunning (by simp)
  | asked e tx c req await hAsks hSettled hTask hRunning hOn hRequest hReq =>
    exact .queued tx c [] [req] hTask hRunning (by simp)
  | opened clientId userName draw hAwait => exact .opened clientId userName draw rfl rfl
  | _ => exact .kept rfl

theorem tables (h : Effect env s e s' o) : TablesEffect s s' := by
  cases h with
  | undone | missing | ended => exact .dropped rfl rfl
  | opened clientId userName draw hAwait => exact .opened clientId userName draw rfl rfl
  | bound clientId addr draw srcId conn c hAwait hClient hConn =>
    exact .bound srcId conn addr hConn rfl
  | unbound clientId addr draw srcId conn hAwait hClient hConn =>
    exact .bound srcId conn addr hConn rfl
  | reaped index task hAwait hTask hEnded => exact .reaped index task hTask hEnded rfl rfl
  | _ => exact .kept rfl

theorem held_of_looping (h : s.looping = true) : s.held = true := by
  unfold VoiceChannel.looping at h
  unfold VoiceChannel.held
  split <;> simp_all

theorem held_of_event (hAwait : s.await = .event) : s.held = true :=
  held_of_looping (VoiceChannel.looping_of_event hAwait)

theorem held_before (h : Effect env s e s' o) (hHeld : s'.held = true) : s.held = true := by
  cases h with
  | ticked | task => exact hHeld
  | turned e output result hLooping => exact held_of_looping hLooping
  | asked e tx c req await hAsks => exact held_of_looping hAsks.looping
  | idled deadline hLooping => exact held_of_looping hLooping
  | pushed e tx sender msg c hAccepts => exact held_of_looping hAccepts.looping
  | held sender bytes sendOk tx msg c hAccepts => exact held_of_looping hAccepts.looping
  | undone | missing | ended => cases hHeld
  | _ => simp [VoiceChannel.held, *]

end Effect

theorem VoiceConnection.Same.refl (c : VoiceConnection) : c.Same c := ⟨rfl, rfl, rfl⟩

/-- The task that `openConnection` spawns. -/
def VoiceChannel.fresh (s : VoiceChannel) (clientId : Uuid) (draw : Draw) : VoiceConnection :=
  { msgRx := [], controlChan := [], clientId, sourceId := draw.sourceId, cryptKey := draw.cryptKey
    phase := .waiting (s.now + VoiceConnection.idleTimeout) }

theorem VoiceChannel.opened_lookup {s : VoiceChannel} {clientId : Uuid} {userName : String}
    {draw : Draw} {i : TaskId} {d : VoiceConnection}
    (h : (s.opened clientId userName draw).spawned[i]? = some d) :
    s.spawned[i]? = some d ∨ (i = s.spawned.length ∧ d = s.fresh clientId draw) :=
  getElem?_snoc_iff.mp h

namespace TasksEffect

variable {env : Env} {s s' : VoiceChannel}

theorem same (h : TasksEffect env s s') {i : Nat} {c : VoiceConnection}
    (hTask : s.spawned[i]? = some c) : ∃ c', s'.spawned[i]? = some c' ∧ c.Same c' := by
  have hSet (tx : TaskId) (old new : VoiceConnection) (hOld : s.spawned[tx]? = some old)
      (hSame : old.Same new) : ∃ c', (s.spawned.set tx new)[i]? = some c' ∧ c.Same c' := by
    by_cases hEq : i = tx
    · subst hEq
      cases hOld.symm.trans hTask
      exact ⟨new, getElem?_set_here hOld, hSame⟩
    · exact ⟨c, getElem?_set_there hOld hEq hTask, .refl c⟩
  cases h with
  | kept hTasks => exact ⟨c, hTasks ▸ hTask, .refl c⟩
  | polled tx old outcome hOld hPoll hTasks =>
    rw [hTasks]
    exact hSet tx old outcome.task hOld ⟨hPoll.sourceId, hPoll.clientId, hPoll.cryptKey⟩
  | queued tx old msgs requests hOld hRunning hTasks =>
    rw [hTasks]
    exact hSet tx old _ hOld ⟨rfl, rfl, rfl⟩
  | opened clientId userName draw hTables hTasks =>
    have hLt : i < s.spawned.length := (List.getElem?_eq_some_iff.mp hTask).1
    refine ⟨c, ?_, .refl c⟩
    rw [hTasks]
    simpa [VoiceChannel.opened, VoiceConnection.start, List.getElem?_append_left hLt]

theorem length_le (h : TasksEffect env s s') : s.spawned.length ≤ s'.spawned.length := by
  cases h with
  | kept hTasks => rw [hTasks]
  | polled tx c outcome hTask hPoll hTasks => rw [hTasks, List.length_set]
  | queued tx c msgs requests hTask hRunning hTasks => rw [hTasks, List.length_set]
  | opened clientId userName draw hTables hTasks =>
    simp [hTasks, VoiceChannel.opened, VoiceConnection.start]

theorem running (h : TasksEffect env s s') {i : Nat} (hRunning : s'.taskRunning i = true) :
    s.taskRunning i = true ∨ ∃ clientId userName draw,
      s'.forwarder = (s.opened clientId userName draw).forwarder ∧ i = s.spawned.length := by
  obtain ⟨c', hTask, hRunning⟩ := VoiceChannel.taskRunning_iff.mp hRunning
  have hOld (hSome : s.spawned[i]? = some c') : s.taskRunning i = true :=
    VoiceChannel.taskRunning_iff.mpr ⟨c', hSome, hRunning⟩
  have hSet (tx : TaskId) (old new : VoiceConnection) (hRunningOld : old.running = true)
      (hOldTask : s.spawned[tx]? = some old) (hNew : (s.spawned.set tx new)[i]? = some c') :
      s.taskRunning i = true := by
    rcases (getElem?_set_iff hOldTask).mp hNew with ⟨rfl, _⟩ | ⟨_, hSome⟩
    · exact VoiceChannel.taskRunning_iff.mpr ⟨old, hOldTask, hRunningOld⟩
    · exact hOld hSome
  cases h with
  | kept hTasks => exact .inl (hOld (hTasks ▸ hTask))
  | polled tx old outcome hOldTask hPoll hTasks =>
    exact .inl (hSet tx old _ hPoll.running hOldTask (hTasks ▸ hTask))
  | queued tx old msgs requests hOldTask hRunningOld hTasks =>
    exact .inl (hSet tx old _ hRunningOld hOldTask (hTasks ▸ hTask))
  | opened clientId userName draw hTables hTasks =>
    rcases VoiceChannel.opened_lookup (hTasks ▸ hTask) with hSome | ⟨hNew, _⟩
    · exact .inl (hOld hSome)
    · exact .inr ⟨clientId, userName, draw, hTables, hNew⟩

end TasksEffect

/-- A server that decodes the empty datagram and voice datagrams with a payload of 26 bytes, whose
sequence and stream time are zero and so not encoded. -/
def Env.bare : Env where
  decode
    | [] => some ⟨none⟩
    | 0x12 :: 0x1e :: 0x18 :: sourceId :: 0x22 :: 0x1a :: payload =>
      if payload.length = 26 ∧ sourceId < 128 then
        some ⟨some (.voice { sequence := 0, streamTime := 0, sourceId := sourceId.toUInt32, payload })⟩
      else none
    | _ => none
  aead := tagged
  slots := 16

/-- The datagram of one byte of voice under a key of one byte. -/
def Env.spoken (sourceId key plain : UInt8) : List UInt8 :=
  [0x12, 0x1e, 0x18, sourceId, 0x22, 0x1a, key] ++ List.replicate 24 0 ++ [plain]

namespace VoiceChannel

/-- No source id was drawn twice. -/
def Distinct (s : VoiceChannel) : Prop :=
  ∀ (i j : TaskId) (c d : VoiceConnection), s.spawned[i]? = some c → s.spawned[j]? = some d →
    c.sourceId = d.sourceId → i = j

theorem distinct_of_nodup {s : VoiceChannel}
    (h : (s.spawned.map VoiceConnection.sourceId).Nodup) : s.Distinct := by
  intro i j c d hc hd hEq
  have hLt : i < (s.spawned.map VoiceConnection.sourceId).length := by
    simpa using (List.getElem?_eq_some_iff.mp hc).1
  refine (List.getElem?_inj hLt h).mp ?_
  rw [List.getElem?_map, List.getElem?_map, hc, hd, Option.map_some, Option.map_some, hEq]

theorem Distinct.before {env : Env} {s s' : VoiceChannel} (hDistinct : s'.Distinct)
    (h : TasksEffect env s s') : s.Distinct := by
  intro i j c d hc hd hEq
  obtain ⟨c', hc', hSameC⟩ := h.same hc
  obtain ⟨d', hd', hSameD⟩ := h.same hd
  exact hDistinct i j c' d' hc' hd' (by rw [hSameC.sourceId, hSameD.sourceId, hEq])

/-- A record of the table leads to the task that has its source id. -/
structure Recorded (s : VoiceChannel) (k : UInt32) (conn : Conn) : Prop where
  key : conn.ctl.sourceId = k
  ctl : conn.ctl.tx = conn.tx
  task : ∃ c, s.spawned[conn.tx]? = some c ∧ c.sourceId = k

def Handled (s : VoiceChannel) (t : VoiceTask) : Prop :=
  ∃ c, s.spawned[t.handle]? = some c ∧ c.clientId = t.clientId ∧ c.sourceId = t.srcId

structure Wf (s : VoiceChannel) : Prop where
  records : ∀ k conn, s.forwarder.connections[k]? = some conn → s.Recorded k conn
  handles : ∀ t ∈ s.forwarder.tasks, s.Handled t
  nodup : (s.forwarder.tasks.map VoiceTask.handle).Nodup
  unreaped : s.held = true → ∀ i, s.taskRunning i = true →
    i ∈ s.forwarder.tasks.map VoiceTask.handle
  idle : ∀ deadline, s.idle = some deadline → s.forwarder.tasks = []
  queues : ∀ (i : TaskId) (c : VoiceConnection), s.spawned[i]? = some c → c.running = true →
    c.controlChan = if s.await.on = some i ∧ s.oneshot = none then [s.await.request] else []

variable {env : Env} {s s' : VoiceChannel} {e : Event} {o : List Output}

theorem opened_connection (clientId : Uuid) (userName : String) (draw : Draw) (k : UInt32) :
    (s.opened clientId userName draw).forwarder.connections[k]? =
      if draw.sourceId = k
      then some (Conn.new { sourceId := draw.sourceId, userName, tx := s.spawned.length })
      else s.forwarder.connections[k]? := by
  simp [opened, VoiceConnection.start, TreeMap.getElem?_insert]

theorem opened_task {clientId : Uuid} {userName : String} {draw : Draw}
    (hTasks : s'.spawned = (s.opened clientId userName draw).spawned) :
    s'.spawned[s.spawned.length]? = some (s.fresh clientId draw) := by
  simp [hTasks, opened, VoiceConnection.start, fresh]

theorem opened_tasks (clientId : Uuid) (userName : String) (draw : Draw) :
    (s.opened clientId userName draw).forwarder.tasks =
      s.forwarder.tasks ++ [{ handle := s.spawned.length, clientId, srcId := draw.sourceId }] := by
  simp [opened, VoiceConnection.start]

theorem bind_connection (srcId : UInt32) (conn : Conn) (addr : SocketAddr) (k : UInt32) :
    (s.bind srcId conn addr).forwarder.connections[k]? =
      if srcId = k then some { conn with addr := some addr } else s.forwarder.connections[k]? := by
  simp [bind, TreeMap.getElem?_insert]

theorem reaped_connection {index : Nat} {task : VoiceTask} {k : UInt32} {conn : Conn}
    (h : (s.reaped index task).forwarder.connections[k]? = some conn) :
    s.forwarder.connections[k]? = some conn := by
  simp only [reaped] at h
  split at h
  · exact h
  · rw [TreeMap.getElem?_erase] at h
    split at h
    · cases h
    · exact h

theorem Recorded.later {k : UInt32} {conn : Conn} (h : s.Recorded k conn)
    (hTasks : TasksEffect env s s') : s'.Recorded k conn where
  key := h.key
  ctl := h.ctl
  task := by
    obtain ⟨c, hTask, hSource⟩ := h.task
    obtain ⟨c', hTask', hSame⟩ := hTasks.same hTask
    exact ⟨c', hTask', hSame.sourceId.trans hSource⟩

theorem Handled.later {t : VoiceTask} (h : s.Handled t) (hTasks : TasksEffect env s s') :
    s'.Handled t := by
  obtain ⟨c, hTask, hClient, hSource⟩ := h
  obtain ⟨c', hTask', hSame⟩ := hTasks.same hTask
  exact ⟨c', hTask', hSame.clientId.trans hClient, hSame.sourceId.trans hSource⟩

theorem Wf.records_step (hWf : s.Wf) (h : Effect env s e s' o) :
    ∀ k conn, s'.forwarder.connections[k]? = some conn → s'.Recorded k conn := by
  intro k conn hConn
  have hOld (conn : Conn) (hOld : s.forwarder.connections[k]? = some conn) : s'.Recorded k conn :=
    (hWf.records k conn hOld).later h.tasks
  cases h.tables with
  | kept hTables => exact hOld conn (hTables ▸ hConn)
  | dropped hTables hHeld => simp [hTables, dropped] at hConn
  | opened clientId userName draw hTables hTasks =>
    rw [hTables, opened_connection] at hConn
    split at hConn
    · rename_i hKey
      cases hConn
      exact ⟨hKey, rfl, _, opened_task hTasks, hKey⟩
    · exact hOld conn hConn
  | bound srcId old addr hFound hTables =>
    rw [hTables, bind_connection] at hConn
    split at hConn
    · rename_i hKey
      subst hKey
      cases hConn
      obtain ⟨hKey, hCtl, hTask⟩ := hOld old hFound
      exact ⟨hKey, hCtl, hTask⟩
    · exact hOld conn hConn
  | reaped index task hTask hEnded hTables hTasks =>
    exact hOld conn (reaped_connection (hTables ▸ hConn))

theorem Wf.handles_step (hWf : s.Wf) (h : Effect env s e s' o) :
    ∀ t ∈ s'.forwarder.tasks, s'.Handled t := by
  intro t ht
  have hOld (hMem : t ∈ s.forwarder.tasks) : s'.Handled t := (hWf.handles t hMem).later h.tasks
  cases h.tables with
  | kept hTables => exact hOld (hTables ▸ ht)
  | dropped hTables hHeld => simp [hTables, dropped] at ht
  | opened clientId userName draw hTables hTasks =>
    rw [hTables, opened_tasks, List.mem_append, List.mem_singleton] at ht
    rcases ht with hMem | rfl
    · exact hOld hMem
    · exact ⟨_, opened_task hTasks, rfl, rfl⟩
  | bound srcId old addr hFound hTables =>
    rw [hTables] at ht
    exact hOld ht
  | reaped index task hTask hEnded hTables hTasks =>
    rw [hTables] at ht
    exact hOld (List.mem_of_mem_eraseIdx ht)

theorem Wf.handle_lt (hWf : s.Wf) {i : TaskId}
    (hMem : i ∈ s.forwarder.tasks.map VoiceTask.handle) : i < s.spawned.length := by
  obtain ⟨t, ht, rfl⟩ := List.mem_map.mp hMem
  obtain ⟨c, hTask, _⟩ := hWf.handles t ht
  exact (List.getElem?_eq_some_iff.mp hTask).1

theorem Wf.nodup_step (hWf : s.Wf) (h : Effect env s e s' o) :
    (s'.forwarder.tasks.map VoiceTask.handle).Nodup := by
  cases h.tables with
  | kept hTables => exact hTables ▸ hWf.nodup
  | dropped hTables hHeld => simp [hTables, dropped]
  | opened clientId userName draw hTables hTasks =>
    rw [hTables, opened_tasks, List.map_append]
    refine List.nodup_append.mpr ⟨hWf.nodup, by simp, ?_⟩
    intro i hMem j hNew
    have hLt := hWf.handle_lt hMem
    rw [List.map_singleton, List.mem_singleton] at hNew
    exact hNew ▸ Nat.ne_of_lt hLt
  | bound srcId old addr hFound hTables => exact hTables ▸ hWf.nodup
  | reaped index task hTask hEnded hTables hTasks =>
    rw [hTables]
    exact hWf.nodup.sublist ((List.eraseIdx_sublist _ _).map _)

theorem Wf.unreaped_step (hWf : s.Wf) (h : Effect env s e s' o) (hHeld : s'.held = true) (i : TaskId)
    (hRunning : s'.taskRunning i = true) : i ∈ s'.forwarder.tasks.map VoiceTask.handle := by
  rcases h.tasks.running hRunning with hOld | ⟨clientId, userName, draw, hTables, rfl⟩
  · have hMem : i ∈ s.forwarder.tasks.map VoiceTask.handle :=
      hWf.unreaped (h.held_before hHeld) i hOld
    cases h.tables with
    | kept hTables => exact hTables ▸ hMem
    | dropped hTables hDropped => exact absurd hHeld (by simp [hDropped])
    | opened clientId userName draw hTables hTasks =>
      rw [hTables, opened_tasks, List.map_append]
      exact List.mem_append_left _ hMem
    | bound srcId conn addr hConn hTables => exact hTables ▸ hMem
    | reaped index task hTask hEnded hTables hTasks =>
      -- the reaped task has ended, so it is another one
      obtain ⟨t, ht, rfl⟩ := List.mem_map.mp hMem
      have hNe : t ≠ task := by
        rintro rfl
        simp [hEnded] at hOld
      obtain ⟨j, hj⟩ := List.mem_iff_getElem?.mp ht
      have hIndex : j ≠ index := by
        rintro rfl
        exact hNe (Option.some.inj (hj.symm.trans hTask))
      rw [hTables]
      exact List.mem_map_of_mem (List.mem_eraseIdx_iff_getElem?.mpr ⟨j, hIndex, hj⟩)
  · rw [hTables, opened_tasks]
    simp

theorem turn_idle {deadline : Instant} (h : s.turn.idle = some deadline) : s.forwarder.tasks = [] := by
  simp only [turn] at h
  split at h
  · rename_i hEmpty
    exact List.isEmpty_iff.mp hEmpty
  · cases h

theorem Wf.idle_step (hWf : s.Wf) (h : Effect env s e s' o) (deadline : Instant)
    (hIdle : s'.idle = some deadline) : s'.forwarder.tasks = [] := by
  cases h with
  | turned | pushed | opened | unbound | reaped => exact turn_idle hIdle
  | undone | missing | ended => rfl
  | _ => exact hWf.idle deadline hIdle

theorem Wf.stopped (hWf : s.Wf) (hHeld : s.held = true) (hTasks : s.forwarder.tasks = [])
    (i : TaskId) : s.taskRunning i = false := by
  by_contra hRunning
  have hMem := hWf.unreaped hHeld i (by simpa using hRunning)
  rw [hTasks] at hMem
  cases hMem

theorem Wf.stopped_of_idle (hWf : s.Wf) (hHeld : s.held = true) {deadline : Instant}
    (hIdle : s.idle = some deadline) (i : TaskId) : s.taskRunning i = false :=
  hWf.stopped hHeld (hWf.idle deadline hIdle) i

/-- A running task that nobody waits for has nothing in its queue. -/
theorem Wf.drained (hWf : s.Wf) (hSettled : s.Settled) {i : TaskId} {c : VoiceConnection}
    (hTask : s.spawned[i]? = some c) (hRunning : c.running = true) : c.controlChan = [] := by
  rw [hWf.queues i c hTask hRunning]
  refine if_neg ?_
  rintro ⟨hOn, hNone⟩
  rcases hSettled i hOn with hSome | hEnded
  · exact hSome hNone
  · simp [taskRunning_of hTask, hRunning] at hEnded

theorem settled_of_on_none (hOn : s.await.on = none) : s.Settled := by
  intro tx hSome
  cases hOn.symm.trans hSome

theorem Accepts.settled {tx : TaskId} {sender : SocketAddr} {msg : InternalMsg}
    (h : Accepts env s e tx sender msg) : s.Settled := by
  rcases h with ⟨_, _, _, _, _, hAwait, _, _⟩ | ⟨_, _, _, hAwait⟩ <;>
    exact settled_of_on_none (by simp [hAwait, Await.on])

/-- Only the task that is waited for has something to answer. -/
theorem Wf.awaited (hWf : s.Wf) {tx : TaskId} {c : VoiceConnection} {request : ControlRequest}
    {rest : List ControlRequest} (hTask : s.spawned[tx]? = some c) (hRunning : c.running = true)
    (hQueue : c.controlChan = request :: rest) :
    s.await.on = some tx ∧ s.oneshot = none ∧ request = s.await.request ∧ rest = [] := by
  have hEq := hWf.queues tx c hTask hRunning
  split at hEq
  · rename_i hOn
    rw [hQueue] at hEq
    cases hEq
    exact ⟨hOn.1, hOn.2, rfl, rfl⟩
  · rw [hQueue] at hEq
    cases hEq

/-- A step of a task either leaves its queue alone or empties it with an answer. -/
theorem Wf.polled_queue (hWf : s.Wf) {tx : TaskId} {c : VoiceConnection} {outcome : Outcome}
    (hTask : s.spawned[tx]? = some c) (hPoll : PollEffect env c s.now s.voice outcome)
    (hRunning : outcome.task.running = true) :
    (outcome.reply = none ∧ outcome.task.controlChan = c.controlChan) ∨
      (outcome.reply ≠ none ∧ outcome.task.controlChan = [] ∧ s.await.on = some tx) := by
  cases hPoll with
  | finished | stopped | unsent => cases hRunning
  | accepted initTimeout addr rest hPhase hControl =>
    obtain ⟨hOn, _, _, rfl⟩ :=
      hWf.awaited hTask (by simp [VoiceConnection.running_iff, hPhase]) hControl
    exact .inr ⟨by simp, rfl, hOn⟩
  | answered request rest hRunning hControl =>
    obtain ⟨hOn, _, _, rfl⟩ := hWf.awaited hTask hRunning hControl
    exact .inr ⟨by simp, rfl, hOn⟩
  | spoke | ponged | lagged | skipped | relayed => exact .inl ⟨rfl, rfl⟩

theorem Wf.queues_polled (hWf : s.Wf) {tx : TaskId} {c : VoiceConnection} {outcome : Outcome}
    (hOld : s.spawned[tx]? = some c) (hPoll : PollEffect env c s.now s.voice outcome) (i : TaskId)
    (d : VoiceConnection) (hTask : (s.polled tx outcome).spawned[i]? = some d)
    (hRunning : d.running = true) :
    d.controlChan =
      if s.await.on = some i ∧ (s.polled tx outcome).oneshot = none then [s.await.request] else [] := by
  rw [polled_oneshot]
  rw [polled_spawned, getElem?_set_iff hOld] at hTask
  rcases hTask with ⟨rfl, rfl⟩ | ⟨hNe, hTask⟩
  · rcases hWf.polled_queue hOld hPoll hRunning with ⟨hReply, hQueue⟩ | ⟨hReply, hQueue, _⟩
    · rw [hReply, hQueue]
      exact hWf.queues i c hOld hPoll.running
    · rw [hQueue, if_neg]
      rintro ⟨_, hNone⟩
      cases hSome : outcome.reply <;> simp_all
  · rw [hWf.queues i d hTask hRunning]
    cases hReply : outcome.reply with
    | none => rfl
    | some reply =>
      -- it answers the request that was waited for, which is not in the queue of task `i`
      obtain ⟨hRun, request, rest, hControl, _⟩ := hPoll.reply hReply
      have hOn : s.await.on = some tx := (hWf.awaited hOld hRun hControl).1
      simp [hOn, Ne.symm hNe]

theorem Wf.queues_step (hWf : s.Wf) (h : Effect env s e s' o) (i : TaskId) (d : VoiceConnection)
    (hTask : s'.spawned[i]? = some d) (hRunning : d.running = true) :
    d.controlChan = if s'.await.on = some i ∧ s'.oneshot = none then [s'.await.request] else [] := by
  have hAsking (s₁ : VoiceChannel) {tx : TaskId} {c : VoiceConnection} {await : Await}
      (hSpawned : s₁.spawned = s.spawned) (hOld : s.spawned[tx]? = some c) (hRun : c.running = true)
      (hSettled : s.Settled) (hOn : await.on = some tx)
      (hTask : ((s₁.asking tx c await.request).waiting await).spawned[i]? = some d) :
      d.controlChan = if await.on = some i ∧ (none : Option Reply) = none then [await.request] else [] := by
    rw [waiting_spawned, asking_spawned, hSpawned, getElem?_set_iff hOld] at hTask
    rcases hTask with ⟨rfl, rfl⟩ | ⟨hNe, hTask⟩
    · simp [hOn, hWf.drained hSettled hOld hRun]
    · simp [hOn, Ne.symm hNe, hWf.drained hSettled hTask hRunning]
  cases h with
  | ticked millis => exact hWf.queues i d hTask hRunning
  | task tx branch c outcome hOld hPoll => exact hWf.queues_polled hOld hPoll i d hTask hRunning
  | turned e output result hLooping hSettled => exact hWf.drained hSettled hTask hRunning
  | pushed e tx sender msg c hAccepts hOld hRun =>
    rw [turn_spawned, setTask_spawned, getElem?_set_iff hOld] at hTask
    rcases hTask with ⟨rfl, rfl⟩ | ⟨_, hTask⟩
    · have hQueue : c.controlChan = [] := hWf.drained hAccepts.settled hOld hRun
      exact hQueue
    · exact hWf.drained hAccepts.settled hTask hRunning
  | held sender bytes sendOk tx msg c hAccepts => exact hWf.drained hAccepts.settled hTask hRunning
  | undone sender bytes sendOk hAwait => exact hWf.drained (settled_of_event hAwait) hTask hRunning
  | missing ctl draw clientId srcId hAwait =>
    exact hWf.drained (settled_of_event hAwait) hTask hRunning
  | opened clientId userName draw hAwait =>
    rw [turn_spawned] at hTask
    rcases opened_lookup hTask with hTask | ⟨_, rfl⟩
    · exact hWf.drained (settled_of_event hAwait) hTask hRunning
    · rfl
  | bound clientId addr draw srcId conn c hAwait hClient hConn hOld hRun =>
    exact hAsking (s.bind srcId conn addr) rfl hOld hRun (settled_of_event hAwait) rfl hTask
  | unbound clientId addr draw srcId conn hAwait =>
    exact hWf.drained (settled_of_event hAwait) hTask hRunning
  | asked e tx c req await hAsks hSettled hOld hRun hOn hRequest =>
    subst hRequest
    exact hAsking s rfl hOld hRun hSettled hOn hTask
  | reaped index task hAwait => exact hWf.drained (settled_of_event hAwait) hTask hRunning
  | closed hAwait => exact hWf.drained (settled_of_event hAwait) hTask hRunning
  | idled deadline hLooping hIdle =>
    have hStopped := hWf.stopped_of_idle (Effect.held_of_looping hLooping) hIdle i
    rw [waiting_spawned] at hTask
    simp [taskRunning_of hTask, hRunning] at hStopped
  | ended hAwait =>
    exact hWf.drained (settled_of_on_none (by simp [hAwait, Await.on])) hTask hRunning

theorem Wf.step (hWf : s.Wf) (h : Effect env s e s' o) : s'.Wf where
  records := hWf.records_step h
  handles := hWf.handles_step h
  nodup := hWf.nodup_step h
  unreaped := hWf.unreaped_step h
  idle := hWf.idle_step h
  queues := hWf.queues_step h

theorem new_wf (roomId : Uuid) (now : Instant) : (new roomId now).Wf where
  records := by simp [new]
  handles := by simp [new]
  nodup := by simp [new]
  unreaped := by simp [new, taskRunning]
  idle := by simp [new]
  queues := by simp [new]

theorem wf {roomId : Uuid} {now : Instant} {es : List Event} {tr : List Output}
    (hRun : Machine.run (VoiceChannel.step env) (new roomId now) es = some (s, tr)) : s.Wf :=
  Machine.run_invariant (new_wf roomId now) (fun _ _ _ _ hWf h => hWf.step (step_effect h)) hRun

/-- The record to which the id of a client leads is a record of that client. -/
def Owned (s : VoiceChannel) : Prop :=
  ∀ id k, s.forwarder.clientIdToSrcId[id]? = some k →
    ∃ (conn : Conn) (c : VoiceConnection), s.forwarder.connections[k]? = some conn ∧
      s.spawned[conn.tx]? = some c ∧ c.clientId = id

theorem opened_client (clientId : Uuid) (userName : String) (draw : Draw) (id : Uuid) :
    (s.opened clientId userName draw).forwarder.clientIdToSrcId[id]? =
      if clientId = id then some draw.sourceId else s.forwarder.clientIdToSrcId[id]? := by
  simp [opened, VoiceConnection.start, TreeMap.getElem?_insert]

theorem reaped_client (index : Nat) (task : VoiceTask) (id : Uuid) :
    (s.reaped index task).forwarder.clientIdToSrcId[id]? =
      if task.clientId = id ∧ s.forwarder.clientIdToSrcId[id]? = some task.srcId then none
      else s.forwarder.clientIdToSrcId[id]? := by
  simp only [reaped]
  by_cases hId : task.clientId = id
  · subst hId
    split <;> simp_all
  · split <;> simp [TreeMap.getElem?_erase, hId]

theorem reaped_connections (index : Nat) (task : VoiceTask) (k : UInt32) :
    (s.reaped index task).forwarder.connections[k]? =
      if task.srcId = k ∧ s.forwarder.clientIdToSrcId[task.clientId]? ≠ none then none
      else s.forwarder.connections[k]? := by
  simp only [reaped]
  by_cases hNone : s.forwarder.clientIdToSrcId[task.clientId]? = none
  · simp [hNone]
  · simp [hNone, TreeMap.getElem?_erase]

theorem Distinct.fresh {clientId : Uuid} {userName : String} {draw : Draw} (hDistinct : s'.Distinct)
    (hTasks : s'.spawned = (s.opened clientId userName draw).spawned) {i : TaskId}
    {c : VoiceConnection} (hTask : s.spawned[i]? = some c) : c.sourceId ≠ draw.sourceId := by
  intro hEq
  have hLt : i < s.spawned.length := (List.getElem?_eq_some_iff.mp hTask).1
  have hTask' : s'.spawned[i]? = some c := by
    rw [hTasks]
    simpa [opened, VoiceConnection.start, List.getElem?_append_left hLt]
  exact absurd (hDistinct i _ c _ hTask' (opened_task hTasks) hEq) (Nat.ne_of_lt hLt)

@[simp] theorem reaped_tasks (index : Nat) (task : VoiceTask) :
    (s.reaped index task).forwarder.tasks = s.forwarder.tasks.eraseIdx index := rfl

@[simp] theorem bind_tasks (srcId : UInt32) (conn : Conn) (addr : SocketAddr) :
    (s.bind srcId conn addr).forwarder.tasks = s.forwarder.tasks := rfl

/-- No record and no unreaped task has the source id. -/
def Unused (s : VoiceChannel) (k : UInt32) : Prop :=
  s.forwarder.connections[k]? = none ∧ ∀ t ∈ s.forwarder.tasks, t.srcId ≠ k

/-- The record under the source id of an unreaped task, if there is one, leads to that task. -/
def Matched (s : VoiceChannel) : Prop :=
  ∀ t ∈ s.forwarder.tasks, ∀ conn, s.forwarder.connections[t.srcId]? = some conn →
    conn.tx = t.handle

theorem Distinct.matched (hDistinct : s.Distinct) (hWf : s.Wf) : s.Matched := by
  intro t hMem conn hConn
  obtain ⟨c, hTask, _, hSource⟩ := hWf.handles t hMem
  obtain ⟨d, hRecord, hKey⟩ := (hWf.records t.srcId conn hConn).task
  exact hDistinct _ _ d c hRecord hTask (hKey.trans hSource.symm)

theorem Distinct.unused (hDistinct : s'.Distinct) (hWf : s.Wf) {clientId : Uuid} {userName : String}
    {draw : Draw} (hTasks : s'.spawned = (s.opened clientId userName draw).spawned) :
    s.Unused draw.sourceId := by
  constructor
  · refine Option.eq_none_iff_forall_ne_some.mpr fun conn hConn => ?_
    obtain ⟨c, hTask, hKey⟩ := (hWf.records draw.sourceId conn hConn).task
    exact hDistinct.fresh hTasks hTask hKey
  · intro t hMem hEq
    obtain ⟨c, hTask, _, hSource⟩ := hWf.handles t hMem
    exact hDistinct.fresh hTasks hTask (hSource.trans hEq)

theorem Owned.later (hOwned : s.Owned) (hWf : s.Wf) (hMatched : s.Matched)
    (hUnused : ∀ clientId userName draw, s'.spawned = (s.opened clientId userName draw).spawned →
      s.Unused draw.sourceId) (h : Effect env s e s' o) : s'.Owned := by
  intro id k hClient
  have hLater (conn : Conn) (c : VoiceConnection) (hTask : s.spawned[conn.tx]? = some c)
      (hId : c.clientId = id) : ∃ c', s'.spawned[conn.tx]? = some c' ∧ c'.clientId = id := by
    obtain ⟨c', hTask', hSame⟩ := h.tasks.same hTask
    exact ⟨c', hTask', hSame.clientId.trans hId⟩
  cases h.tables with
  | kept hTables =>
    rw [hTables] at hClient ⊢
    obtain ⟨conn, c, hConn, hTask, hId⟩ := hOwned id k hClient
    obtain ⟨c', hTask', hId'⟩ := hLater conn c hTask hId
    exact ⟨conn, c', hConn, hTask', hId'⟩
  | dropped hTables hHeld =>
    rw [hTables] at hClient
    simp [dropped] at hClient
  | opened clientId userName draw hTables hTasks =>
    rw [hTables, opened_client] at hClient
    rw [hTables]
    simp only [opened_connection]
    split at hClient
    · rename_i hId
      subst hId
      cases hClient
      exact ⟨_, _, if_pos rfl, opened_task hTasks, rfl⟩
    · obtain ⟨conn, c, hConn, hTask, hId⟩ := hOwned id k hClient
      obtain ⟨c', hTask', hId'⟩ := hLater conn c hTask hId
      refine ⟨conn, c', ?_, hTask', hId'⟩
      rw [if_neg, hConn]
      rintro rfl
      exact absurd ((hUnused clientId userName draw hTasks).1.symm.trans hConn) (by simp)
  | bound srcId old addr hFound hTables =>
    rw [hTables] at hClient ⊢
    simp only [bind_connection]
    obtain ⟨conn, c, hConn, hTask, hId⟩ := hOwned id k hClient
    obtain ⟨c', hTask', hId'⟩ := hLater conn c hTask hId
    by_cases hKey : srcId = k
    · subst hKey
      cases hFound.symm.trans hConn
      exact ⟨_, c', if_pos rfl, hTask', hId'⟩
    · exact ⟨conn, c', by rw [if_neg hKey, hConn], hTask', hId'⟩
  | reaped index task hReaped hEnded hTables hTasks =>
    rw [hTables, reaped_client] at hClient
    split at hClient
    · cases hClient
    · rename_i hKept
      obtain ⟨conn, c, hConn, hTask, hId⟩ := hOwned id k hClient
      obtain ⟨c', hTask', hId'⟩ := hLater conn c hTask hId
      refine ⟨conn, c', ?_, hTask', hId'⟩
      rw [hTables, reaped_connections, if_neg, hConn]
      rintro ⟨rfl, _⟩
      -- the record of the reaped task is the one that the client's entry leads to
      obtain ⟨d, hHandle, hClientId, _⟩ := hWf.handles task (List.mem_of_getElem? hReaped)
      rw [← hMatched task (List.mem_of_getElem? hReaped) conn hConn] at hHandle
      cases hHandle.symm.trans hTask
      exact hKept ⟨hClientId.symm.trans hId, hClient⟩

theorem Owned.step (hOwned : s.Owned) (hWf : s.Wf) (hDistinct : s'.Distinct)
    (h : Effect env s e s' o) : s'.Owned :=
  hOwned.later hWf ((hDistinct.before h.tasks).matched hWf) (fun _ _ _ => hDistinct.unused hWf) h

theorem Distinct.of_run {es : List Event} {tr : List Output} (hDistinct : s'.Distinct)
    (hRun : Machine.run (VoiceChannel.step env) s es = some (s', tr)) : s.Distinct :=
  Machine.run_invariant (I := fun s₁ => s₁.Distinct → s.Distinct) id
    (fun _ _ _ _ hKeep h hDistinct => hKeep (hDistinct.before (step_effect h).tasks)) hRun hDistinct

theorem new_owned (roomId : Uuid) (now : Instant) : (new roomId now).Owned := by
  simp [Owned, new]

theorem owned {roomId : Uuid} {now : Instant} {es : List Event} {tr : List Output}
    (hRun : Machine.run (VoiceChannel.step env) (new roomId now) es = some (s, tr))
    (hDistinct : s.Distinct) : s.Owned := by
  have hBoth : s.Wf ∧ (s.Distinct → s.Owned) := by
    refine Machine.run_invariant (I := fun s => s.Wf ∧ (s.Distinct → s.Owned)) ?_ ?_ hRun
    · exact ⟨new_wf roomId now, fun _ => new_owned roomId now⟩
    · rintro s₁ e s₂ o ⟨hWf, hOwned⟩ h
      have hEffect := step_effect h
      exact ⟨hWf.step hEffect, fun hDistinct =>
        (hOwned (hDistinct.before hEffect.tasks)).step hWf hDistinct hEffect⟩
  exact hBoth.2 hDistinct

end VoiceChannel

end Voices.VoiceServer
