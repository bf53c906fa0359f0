import Voices.VoiceServer.Handlers
import Voices.VoiceServer.Leave
import Voices.VoiceServer.PeerList
import Voices.VoiceServer.SourceIds

/-!
# The connection state that `Status` reports

No variable holds the state of a connection: it is the loop its task is in, and that its
client has left the index once the task is reaped. One answer after the other goes forward
as long as the index leads to this task, which takes its source id to be its own.
-/

namespace Voices.VoiceServer

open Semantics Std

def ConnectionState.stage : ConnectionState → Nat
  | .waiting => 0
  | .peered => 1
  | .stopped => 2

theorem ConnectionState.stage_le (state : ConnectionState) : state.stage ≤ 2 := by
  cases state <;> decide

/-- How far the answer to a `Status` is; `PeerNotFound` is as far as `Stopped`. -/
def stage : Option ConnectionState → Nat
  | some state => state.stage
  | none => ConnectionState.stage .stopped

theorem stage_le (state : Option ConnectionState) : stage state ≤ 2 := by
  cases state with
  | none => exact Nat.le_refl 2
  | some state => exact state.stage_le

/-- A task stays in its loop, ends, or leaves the first loop with an accepted `Init`. -/
theorem PollEffect.moves {env : Env} {c : VoiceConnection} {now : Instant}
    {log : List (UInt32 × Voice)} {outcome : Outcome} (h : PollEffect env c now log outcome) :
    outcome.task.state = c.state ∨ outcome.task.state = .stopped ∨
      (c.state = .waiting ∧ ∃ addr rest response, c.controlChan = .init addr :: rest ∧
        outcome.reply = some (.init response)) := by
  cases h with
  | finished | stopped | unsent => exact .inr (.inl rfl)
  | accepted initTimeout addr rest hPhase hControl =>
    exact .inr (.inr ⟨by simp [VoiceConnection.state, hPhase], addr, rest, _, hControl, rfl⟩)
  | answered => exact .inl rfl
  | spoke | ponged | lagged | skipped | relayed => exact .inl (by simp [VoiceConnection.state, *])

theorem PollEffect.stage_le {env : Env} {c : VoiceConnection} {now : Instant}
    {log : List (UInt32 × Voice)} {outcome : Outcome} (h : PollEffect env c now log outcome) :
    c.state.stage ≤ outcome.task.state.stage := by
  rcases h.moves with hSame | hEnded | ⟨hWaiting, _⟩
  · rw [hSame]
  · rw [hEnded]
    exact c.state.stage_le
  · rw [hWaiting]
    exact Nat.zero_le _

theorem Await.establish_of_request {await : Await} {addr : SocketAddr}
    (h : await.request = .init addr) : ∃ id tx, await = .control (.establish id addr) tx := by
  unfold request at h
  split at h
  · cases h
    exact ⟨_, _, rfl⟩
  · cases h
  · cases h

def Output.statusOf (clientId : Uuid) : Output → Option (Option ConnectionState)
  | .answered (.status id) (.status state) => if id = clientId then some state else none
  | _ => none

/-- The successive answers to `Status` for a client. -/
def statuses (clientId : Uuid) (tr : List Output) : List (Option ConnectionState) :=
  tr.filterMap (Output.statusOf clientId)

/-- An `Establish` for the client was accepted. -/
def Established (clientId : Uuid) (tr : List Output) : Prop :=
  ∃ addr response, .answered (.establish clientId addr) (.established (some response)) ∈ tr

variable {clientId : Uuid} {tr tr' : List Output}

theorem statuses_append :
    statuses clientId (tr ++ tr') = statuses clientId tr ++ statuses clientId tr' :=
  List.filterMap_append

theorem mem_statuses_iff {state : Option ConnectionState} :
    state ∈ statuses clientId tr ↔ .answered (.status clientId) (.status state) ∈ tr := by
  constructor
  · intro h
    obtain ⟨out, hMem, hStatus⟩ := List.mem_filterMap.mp h
    unfold Output.statusOf at hStatus
    split at hStatus
    · split at hStatus
      · rename_i hId
        cases hStatus
        exact hId ▸ hMem
      · cases hStatus
    · cases hStatus
  · intro h
    exact List.mem_filterMap.mpr ⟨_, h, if_pos rfl⟩

theorem Established.append (h : Established clientId tr) (tr' : List Output) :
    Established clientId (tr ++ tr') := by
  obtain ⟨addr, response, hMem⟩ := h
  exact ⟨addr, response, List.mem_append_left _ hMem⟩

namespace VoiceChannel

/-- The answers to `Status` so far went forward only; `Peered` comes after an accepted `Establish`;
and once the last stage was answered nothing more is forwarded to or from the task of the
connection, whatever happens next. -/
structure MovesForward (env : Env) (clientId : Uuid) (i : TaskId) (tr : List Output)
    (s : VoiceChannel) : Prop where
  ordered : (statuses clientId tr).Pairwise (stage · ≤ stage ·)
  established : ∀ e s' o, step env s e = some (s', o) →
    .answered (.status clientId) (.status (some .peered)) ∈ o → Established clientId tr
  silent : ∀ state ∈ statuses clientId tr, stage state = stage none →
    ∀ e s' o, step env s e = some (s', o) →
      (∀ branch, e ≠ .task i branch) ∧ ∀ sender msg, .forwarded i sender msg ∉ o

/-- The source id is not drawn now, or no unreaped task has it. -/
def DrawsUnreaped (k : UInt32) (s : VoiceChannel) (e : Event) : Prop :=
  k ∈ e.drawn → ∀ t ∈ s.forwarder.tasks, t.srcId ≠ k

instance (k : UInt32) (s : VoiceChannel) (e : Event) : Decidable (DrawsUnreaped k s e) :=
  inferInstanceAs (Decidable (_ → ∀ t ∈ s.forwarder.tasks, _))

/-- The index leads from the client to the task, whose source id is its own. -/
structure Current (s : VoiceChannel) (clientId : Uuid) (i : TaskId) (k : UInt32) : Prop where
  task : (⟨i, clientId, k⟩ : VoiceTask) ∈ s.forwarder.tasks
  sole : ∀ t ∈ s.forwarder.tasks, t.srcId = k → t.handle = i
  index : s.forwarder.clientIdToSrcId[clientId]? = some k
  record : ∃ conn, s.forwarder.connections[k]? = some conn ∧ conn.tx = i

/-- The task of the client was reaped, or the forwarder is no more. -/
structure Gone (s : VoiceChannel) (clientId : Uuid) (i : TaskId) : Prop where
  index : s.forwarder.clientIdToSrcId[clientId]? = none
  ended : s.held = true → s.taskRunning i = false

/-- The index leads to unreaped tasks. -/
def Indexed (s : VoiceChannel) : Prop :=
  ∀ id k, s.forwarder.clientIdToSrcId[id]? = some k →
    ∃ t ∈ s.forwarder.tasks, t.clientId = id ∧ t.srcId = k

variable {env : Env} {s s' : VoiceChannel} {e : Event} {o : List Output} {i : TaskId} {k : UInt32}

theorem Indexed.step (h : s.Indexed) (hEffect : Effect env s e s' o) : s'.Indexed := by
  intro id k hIndex
  cases hEffect.tables with
  | kept hTables =>
    rw [hTables] at hIndex ⊢
    exact h id k hIndex
  | dropped hTables hHeld =>
    rw [hTables] at hIndex
    simp [dropped] at hIndex
  | opened clientId userName draw hTables hTasks =>
    rw [hTables, opened_client] at hIndex
    rw [hTables, opened_tasks]
    split at hIndex
    · rename_i hId
      cases hIndex
      exact ⟨_, List.mem_append_right _ (List.mem_singleton_self _), hId, rfl⟩
    · obtain ⟨t, hMem, hFields⟩ := h id k hIndex
      exact ⟨t, List.mem_append_left _ hMem, hFields⟩
  | bound srcId conn addr hConn hTables =>
    rw [hTables] at hIndex ⊢
    exact h id k hIndex
  | reaped index task hTask hEnded hTables hTasks =>
    rw [hTables, reaped_client] at hIndex
    rw [hTables, reaped_tasks]
    split at hIndex
    · cases hIndex
    · rename_i hKept
      obtain ⟨t, hMem, hClient, hSource⟩ := h id k hIndex
      obtain ⟨j, hj⟩ := List.mem_iff_getElem?.mp hMem
      refine ⟨t, List.mem_eraseIdx_iff_getElem?.mpr ⟨j, ?_, hj⟩, hClient, hSource⟩
      rintro rfl
      cases hTask.symm.trans hj
      exact hKept ⟨hClient, hSource ▸ hIndex⟩

theorem not_running_later (hEffect : Effect env s e s' o) (hLt : i < s.spawned.length)
    (hEnded : s.taskRunning i = false) : s'.taskRunning i = false := by
  by_contra hRunning
  rcases hEffect.tasks.running (Bool.not_eq_false _ ▸ hRunning) with hBefore | ⟨_, _, _, _, hNew⟩
  · exact absurd (hEnded.symm.trans hBefore) Bool.false_ne_true
  · exact absurd hNew (Nat.ne_of_lt hLt)

theorem Gone.step (h : s.Gone clientId i) (hEffect : Effect env s e s' o)
    (hLt : i < s.spawned.length)
    (hOther : ∀ userName draw, e ≠ .control (.openConnection clientId userName) draw) :
    s'.Gone clientId i := by
  refine ⟨?_, fun hHeld => not_running_later hEffect hLt (h.ended (hEffect.held_before hHeld))⟩
  cases hEffect with
  | opened id userName draw hAwait =>
    rw [turn_forwarder, opened_client, if_neg, h.index]
    rintro rfl
    exact hOther userName draw rfl
  | reaped index task hAwait hTask hEnded =>
    rw [turn_forwarder, reaped_client, h.index]
    exact ite_self _
  | undone | missing | ended => simp [panic, dropped]
  | _ => exact h.index

theorem Current.kept (h : s.Current clientId i k) (hTables : s'.forwarder = s.forwarder) :
    s'.Current clientId i k := by
  obtain ⟨hTask, hSole, hIndex, hRecord⟩ := h
  rw [← hTables] at hTask hSole hIndex hRecord
  exact ⟨hTask, hSole, hIndex, hRecord⟩

theorem Current.bind (h : s.Current clientId i k) (srcId : UInt32) (conn : Conn) (addr : SocketAddr)
    (hConn : s.forwarder.connections[srcId]? = some conn) :
    (s.bind srcId conn addr).Current clientId i k := by
  refine ⟨h.task, h.sole, h.index, ?_⟩
  obtain ⟨own, hOwn, hTx⟩ := h.record
  rw [bind_connection]
  split
  · rename_i hKey
    subst hKey
    cases hConn.symm.trans hOwn
    exact ⟨_, rfl, hTx⟩
  · exact ⟨own, hOwn, hTx⟩

/-- Reaping the task of the connection makes the client forgotten, reaping another one leaves it. -/
theorem Current.reaped (h : s.Current clientId i k) (hWf : s.Wf) {index : Nat} {task : VoiceTask}
    (hTask : s.forwarder.tasks[index]? = some task) (hEnded : s.taskRunning task.handle = false) :
    (s.reaped index task).turn.Current clientId i k ∨ (s.reaped index task).turn.Gone clientId i := by
  have hMem : task ∈ s.forwarder.tasks := List.mem_of_getElem? hTask
  by_cases hKey : task.srcId = k
  · right
    have hHandle : task.handle = i := h.sole task hMem hKey
    obtain ⟨c, hc, hClient, _⟩ := hWf.handles task hMem
    obtain ⟨c', hc', hClient', _⟩ := hWf.handles _ h.task
    rw [hHandle] at hc hEnded
    cases hc.symm.trans hc'
    refine ⟨?_, fun _ => hEnded⟩
    rw [turn_forwarder, reaped_client, if_pos ⟨hClient.symm.trans hClient', hKey ▸ h.index⟩]
  · left
    obtain ⟨j, hj⟩ := List.mem_iff_getElem?.mp h.task
    constructor
    · refine List.mem_eraseIdx_iff_getElem?.mpr ⟨j, ?_, hj⟩
      rintro rfl
      cases hTask.symm.trans hj
      exact hKey rfl
    · exact fun t ht => h.sole t (List.mem_of_mem_eraseIdx ht)
    · rw [turn_forwarder, reaped_client, if_neg, h.index]
      rintro ⟨_, hSource⟩
      exact hKey (Option.some.inj (hSource.symm.trans h.index))
    · rw [turn_forwarder, reaped_connections, if_neg fun hBoth => hKey hBoth.1]
      exact h.record

theorem Current.step (h : s.Current clientId i k) (hWf : s.Wf) (hDraws : DrawsUnreaped k s e)
    (hOther : ∀ userName draw, e ≠ .control (.openConnection clientId userName) draw)
    (hEffect : Effect env s e s' o) : s'.Current clientId i k ∨ s'.Gone clientId i := by
  cases hEffect with
  | opened id userName draw hAwait =>
    left
    have hKey : draw.sourceId ≠ k := fun hKey => hDraws (congrArg some hKey) _ h.task rfl
    have hId : id ≠ clientId := by
      rintro rfl
      exact hOther userName draw rfl
    constructor
    · rw [turn_forwarder, opened_tasks]
      exact List.mem_append_left _ h.task
    · intro t ht hSource
      rw [turn_forwarder, opened_tasks, List.mem_append, List.mem_singleton] at ht
      rcases ht with hOld | rfl
      · exact h.sole t hOld hSource
      · exact absurd hSource hKey
    · rw [turn_forwarder, opened_client, if_neg hId]
      exact h.index
    · rw [turn_forwarder, opened_connection, if_neg hKey]
      exact h.record
  | bound id addr draw srcId conn c hAwait hClient hConn =>
    exact .inl ((h.bind srcId conn addr hConn).kept rfl)
  | unbound id addr draw srcId conn hAwait hClient hConn =>
    exact .inl ((h.bind srcId conn addr hConn).kept rfl)
  | reaped index task hAwait hTask hEnded => exact h.reaped hWf hTask hEnded
  | undone | missing | ended =>
    refine .inr ⟨?_, fun hHeld => by cases hHeld⟩
    simp [panic, dropped]
  | _ => exact .inl (h.kept rfl)

theorem taskState_eq_stopped (h : s.taskRunning i = false) : s.taskState i = .stopped := by
  unfold taskRunning at h
  unfold taskState
  split
  · rename_i c hTask
    rw [hTask] at h
    rw [VoiceConnection.state, VoiceConnection.running_eq_false_iff.mp h]
  · rfl

theorem not_running_of_stage (h : 2 ≤ (s.taskState i).stage) : s.taskRunning i = false := by
  by_contra hRunning
  obtain ⟨c, hTask, hRun⟩ := taskRunning_iff.mp (Bool.not_eq_false _ ▸ hRunning)
  rw [taskState_of hTask] at h
  cases hPhase : c.phase with
  | ended => exact VoiceConnection.running_iff.mp hRun hPhase
  | waiting | peered => simp [VoiceConnection.state, hPhase, ConnectionState.stage] at h

theorem taskState_set {tx : TaskId} {c d : VoiceConnection} (hTask : s.spawned[tx]? = some c)
    (hTasks : s'.spawned = s.spawned.set tx d) (hSame : tx = i → d.state = c.state) :
    s'.taskState i = s.taskState i := by
  rcases eq_or_ne tx i with rfl | hNe
  · have hAfter : s'.spawned[tx]? = some d := by
      rw [hTasks]
      exact getElem?_set_here hTask
    rw [taskState_of hTask, taskState_of hAfter, hSame rfl]
  · simp only [taskState, hTasks, List.getElem?_set_ne hNe]

/-- Only a step of the task itself changes its state. -/
theorem taskState_step (hEffect : Effect env s e s' o) (hLt : i < s.spawned.length) :
    s'.taskState i = s.taskState i ∨ ∃ branch c outcome, e = .task i branch ∧
      s.spawned[i]? = some c ∧ PollEffect env c s.now s.voice outcome ∧ s' = s.polled i outcome := by
  cases hEffect with
  | task tx branch c outcome hTask hPoll =>
    rcases eq_or_ne tx i with rfl | hNe
    · exact .inr ⟨branch, c, outcome, rfl, hTask, hPoll, rfl⟩
    · exact .inl (taskState_set hTask rfl fun hEq => absurd hEq hNe)
  | pushed e tx sender msg c hAccepts hTask => exact .inl (taskState_set hTask rfl fun _ => rfl)
  | bound id addr draw srcId conn c hAwait hClient hConn hTask =>
    exact .inl (taskState_set hTask rfl fun _ => rfl)
  | asked e tx c req await hAsks hSettled hTask => exact .inl (taskState_set hTask rfl fun _ => rfl)
  | opened id userName draw hAwait =>
    left
    simp only [taskState, turn_spawned, opened, VoiceConnection.start,
      List.getElem?_append_left hLt]
  | _ => exact .inl rfl

theorem stage_taskState_le (hEffect : Effect env s e s' o) (hLt : i < s.spawned.length) :
    (s.taskState i).stage ≤ (s'.taskState i).stage := by
  rcases taskState_step hEffect hLt with hSame | ⟨_, c, outcome, _, hTask, hPoll, rfl⟩
  · rw [hSame]
  · have hAfter : (s.polled i outcome).spawned[i]? = some outcome.task :=
      getElem?_set_here hTask
    rw [taskState_of hTask, taskState_of hAfter]
    exact hPoll.stage_le

/-- An answer that goes forward from the ones before it. -/
structure Advances (s : VoiceChannel) (clientId : Uuid) (i : TaskId) (tr : List Output)
    (state : Option ConnectionState) : Prop where
  reached : stage state ≤ (s.taskState i).stage
  later : ∀ earlier ∈ statuses clientId tr, stage earlier ≤ stage state
  accepted : state = some .peered → Established clientId tr

/-- The connection that a client opened last, since it was opened. -/
structure Followed (clientId : Uuid) (i : TaskId) (k : UInt32) (tr : List Output) (s : VoiceChannel) :
    Prop where
  task : ∃ c, s.spawned[i]? = some c ∧ c.clientId = clientId ∧ c.sourceId = k
  place : s.Current clientId i k ∨ s.Gone clientId i
  waits : ∀ ctl tx, s.await = .control ctl tx → (ctl.client = some clientId ↔ tx = i)
  ordered : (statuses clientId tr).Pairwise (stage · ≤ stage ·)
  below : ∀ state ∈ statuses clientId tr, stage state ≤ (s.taskState i).stage
  /-- The reply that the handler of a `Status` has not read yet. -/
  pending : ∀ reply, s.await = .control (.status clientId) i → s.oneshot = some reply →
    ∃ state, reply = .status state ∧ s.Advances clientId i tr (some state)
  peered : s.taskState i = .peered → Established clientId tr ∨
    ∃ addr response, s.await = .control (.establish clientId addr) i ∧
      s.oneshot = some (.init response)

theorem Followed.lt (h : s.Followed clientId i k tr) : i < s.spawned.length := by
  obtain ⟨c, hTask, _⟩ := h.task
  exact (List.getElem?_eq_some_iff.mp hTask).1

theorem Followed.task_step (h : s.Followed clientId i k tr) (hEffect : Effect env s e s' o) :
    ∃ c, s'.spawned[i]? = some c ∧ c.clientId = clientId ∧ c.sourceId = k := by
  obtain ⟨c, hTask, hClient, hSource⟩ := h.task
  obtain ⟨c', hTask', hSame⟩ := hEffect.tasks.same hTask
  exact ⟨c', hTask', hSame.clientId.trans hClient, hSame.sourceId.trans hSource⟩

/-- A request for the client leads to its task, and no other request does. -/
theorem Followed.finds (h : s.Followed clientId i k tr) (hWf : s.Wf) (hIndexed : s.Indexed)
    (hEvent : s.await = .event) {ctl : ChannelCtl} {tx : TaskId} (hFinds : s.Finds ctl tx) :
    ctl.client = some clientId ↔ tx = i := by
  obtain ⟨hRunning, id, k', conn, hCtl, hClient, hConn, rfl⟩ := hFinds
  obtain ⟨hKey, hTx, d, hd, hSource⟩ := hWf.records k' conn hConn
  rw [hCtl]
  constructor
  · intro hId
    cases hId
    rcases h.place with hCurrent | hGone
    · obtain ⟨own, hOwn, hOwnTx⟩ := hCurrent.record
      cases hClient.symm.trans hCurrent.index
      cases hConn.symm.trans hOwn
      exact hTx.trans hOwnTx
    · cases hClient.symm.trans hGone.index
  · intro hEq
    rcases h.place with hCurrent | hGone
    · obtain ⟨c, hTask, hOwner, hOwn⟩ := h.task
      rw [← hTx, hEq, hTask] at hd
      cases hd
      -- the entry of `id` is for the source id of the task, which no other task has
      obtain ⟨t, ht, hId, hSrc⟩ := hIndexed id k' hClient
      have hHandle : t.handle = i := hCurrent.sole t ht (hSrc.trans (hSource.symm.trans hOwn))
      obtain ⟨d, hd, hOwner', _⟩ := hWf.handles t ht
      rw [hHandle, hTask] at hd
      cases hd
      rw [← hId, ← hOwner', hOwner]
    · have hHeld : s.held = true := Effect.held_of_event hEvent
      rw [hEq, hGone.ended hHeld] at hRunning
      cases hRunning

theorem Followed.waits_step (h : s.Followed clientId i k tr) (hWf : s.Wf) (hIndexed : s.Indexed)
    (hStep : VoiceChannel.step env s e = some (s', o)) {ctl : ChannelCtl} {tx : TaskId}
    (hAwait : s'.await = .control ctl tx) : ctl.client = some clientId ↔ tx = i := by
  rcases control_await hStep hAwait with hBefore | ⟨hEvent, _, hFinds, _⟩
  · exact h.waits ctl tx hBefore
  · exact h.finds hWf hIndexed hEvent hFinds

/-- What is answered now is what the task is, or was when it replied. -/
theorem Followed.reports (h : s.Followed clientId i k tr) (hWf : s.Wf)
    {state : Option ConnectionState} (hReports : s.Reports clientId e state) :
    s.Advances clientId i tr state := by
  have hLast (hEnded : s.taskRunning i = false) (state : Option ConnectionState)
      (hStage : stage state = 2) (hPeered : state ≠ some .peered) :
      s.Advances clientId i tr state := by
    refine ⟨?_, fun earlier _ => hStage ▸ stage_le earlier, fun hEq => absurd hEq hPeered⟩
    rw [hStage, taskState_eq_stopped hEnded]
    exact Nat.le_refl 2
  cases hReports with
  | unknown draw hAwait hClient =>
    rcases h.place with hCurrent | hGone
    · cases hClient.symm.trans hCurrent.index
    · have hHeld : s.held = true := Effect.held_of_event hAwait
      exact hLast (hGone.ended hHeld) none rfl (fun hEq => by cases hEq)
  | stopped draw k' conn hAwait hClient hConn hEnded =>
    rcases h.place with hCurrent | hGone
    · obtain ⟨own, hOwn, hOwnTx⟩ := hCurrent.record
      cases hClient.symm.trans hCurrent.index
      cases hConn.symm.trans hOwn
      rw [(hWf.records k conn hConn).ctl, hOwnTx] at hEnded
      exact hLast hEnded (some .stopped) rfl (fun hEq => by cases hEq)
    · cases hClient.symm.trans hGone.index
  | replied tx state hAwait hReply =>
    obtain rfl : tx = i := (h.waits _ _ hAwait).mp rfl
    obtain ⟨state', hEq, hAdvances⟩ := h.pending _ hAwait hReply
    cases hEq
    exact hAdvances
  | ended tx hAwait hEnded =>
    obtain rfl : tx = i := (h.waits _ _ hAwait).mp rfl
    exact hLast hEnded (some .stopped) rfl (fun hEq => by cases hEq)

/-- A step answers at most one `Status`, and then its handler is at its end. -/
theorem statuses_step (clientId : Uuid) (hStep : VoiceChannel.step env s e = some (s', o)) :
    statuses clientId o = [] ∨ ∃ state, s.Reports clientId e state ∧ s' = s.turn ∧
      statuses clientId o = [state] := by
  cases hStatuses : statuses clientId o with
  | nil => exact .inl rfl
  | cons state rest =>
    right
    have hMem : state ∈ statuses clientId o := hStatuses ▸ List.mem_cons_self
    obtain ⟨hReports, hRespond⟩ := answered_status hStep (mem_statuses_iff.mp hMem)
    cases hRespond
    refine ⟨state, hReports, rfl, ?_⟩
    rw [← hStatuses]
    simp [statuses, Output.statusOf]

theorem Followed.ordered_step (h : s.Followed clientId i k tr) (hWf : s.Wf)
    (hStep : VoiceChannel.step env s e = some (s', o)) :
    (statuses clientId (tr ++ o)).Pairwise (stage · ≤ stage ·) := by
  rw [statuses_append]
  rcases statuses_step clientId hStep with hNone | ⟨state, hReports, _, hOne⟩
  · rw [hNone, List.append_nil]
    exact h.ordered
  · rw [hOne]
    refine List.pairwise_append.mpr ⟨h.ordered, List.pairwise_singleton _ _, ?_⟩
    intro earlier hEarlier last hLast
    rw [List.mem_singleton.mp hLast]
    exact (h.reports hWf hReports).later earlier hEarlier

theorem Followed.below_step (h : s.Followed clientId i k tr) (hWf : s.Wf)
    (hStep : VoiceChannel.step env s e = some (s', o)) :
    ∀ state ∈ statuses clientId (tr ++ o), stage state ≤ (s'.taskState i).stage := by
  have hMono := stage_taskState_le (step_effect hStep) h.lt
  intro state hMem
  rw [statuses_append, List.mem_append] at hMem
  rcases hMem with hOld | hNew
  · exact (h.below state hOld).trans hMono
  · rcases statuses_step clientId hStep with hNone | ⟨state', hReports, _, hOne⟩
    · rw [hNone] at hNew
      cases hNew
    · rw [hOne, List.mem_singleton] at hNew
      subst hNew
      exact (h.reports hWf hReports).reached.trans hMono

theorem Advances.after {state : Option ConnectionState} (h : s.Advances clientId i tr state)
    (hMono : (s.taskState i).stage ≤ (s'.taskState i).stage) (hSilent : statuses clientId o = []) :
    s'.Advances clientId i (tr ++ o) state where
  reached := h.reached.trans hMono
  later := by
    rw [statuses_append, hSilent, List.append_nil]
    exact h.later
  accepted := fun hPeered => (h.accepted hPeered).append o

theorem Followed.pending_step (h : s.Followed clientId i k tr) (hWf : s.Wf)
    (hStep : VoiceChannel.step env s e = some (s', o)) {reply : Reply}
    (hAwait : s'.await = .control (.status clientId) i) (hOneshot : s'.oneshot = some reply) :
    ∃ state, reply = .status state ∧ s'.Advances clientId i (tr ++ o) (some state) := by
  have hMono := stage_taskState_le (step_effect hStep) h.lt
  rcases control_await hStep hAwait with hBefore | ⟨_, _, _, hNone⟩
  · have hSilent : statuses clientId o = [] := by
      rcases statuses_step clientId hStep with hNone | ⟨_, _, rfl, _⟩
      · exact hNone
      · cases hAwait
    have hKept (hSame : s.oneshot = some reply) :
        ∃ state, reply = .status state ∧ s'.Advances clientId i (tr ++ o) (some state) := by
      obtain ⟨state, hEq, hAdvances⟩ := h.pending reply hBefore hSame
      exact ⟨state, hEq, hAdvances.after hMono hSilent⟩
    cases pends hBefore hStep with
    | ticked millis => exact hKept hOneshot
    | polled j branch c outcome hTask hPoll =>
      rw [polled_oneshot] at hOneshot
      cases hReply : outcome.reply with
      | none =>
        rw [hReply] at hOneshot
        exact hKept hOneshot
      | some reply' =>
        rw [hReply] at hOneshot
        cases hOneshot
        obtain ⟨hRunning, request, rest, hQueue, rfl⟩ := hPoll.reply hReply
        obtain ⟨hOn, _, rfl, _⟩ := hWf.awaited hTask hRunning hQueue
        rw [hBefore] at hOn ⊢
        cases hOn
        -- the task replies with the state that it is in
        have hState : s.taskState i = c.state := taskState_of hTask
        have hStage : c.state.stage = (s.taskState i).stage := congrArg _ hState.symm
        refine ⟨c.state, rfl, Advances.after ⟨hStage.le, ?_, ?_⟩ hMono hSilent⟩
        · exact fun earlier hMem => (h.below earlier hMem).trans hStage.ge
        · intro hPeered
          rcases h.peered (hState.trans (Option.some.inj hPeered)) with hDone | ⟨_, _, hOther, _⟩
          · exact hDone
          · cases hBefore.symm.trans hOther
    | resumed s' o hResume =>
      rw [show s' = s.turn from resumeControl_await hResume] at hAwait
      cases hAwait
    | idled deadline hIdle => cases hAwait
  · cases hNone.symm.trans hOneshot

theorem resume_established {addr : SocketAddr} {response : InitResponse}
    (hAwait : s.await = .control (.establish clientId addr) i)
    (hOneshot : s.oneshot = some (.init response))
    (hStep : VoiceChannel.step env s .resume = some (s', o)) : Established clientId o := by
  simp only [VoiceChannel.step, resume, hAwait, resumeControl, hOneshot, Option.some.injEq] at hStep
  obtain rfl : (s.respond (.establish clientId addr) (.established (some response))).2 = o :=
    congrArg Prod.snd hStep
  exact ⟨addr, response, List.mem_cons_self⟩

/-- An answer that is there is not replaced while it is waited for. -/
theorem polled_kept (hWf : s.Wf) {j : TaskId} {c : VoiceConnection} {outcome : Outcome} {reply : Reply}
    (hTask : s.spawned[j]? = some c) (hPoll : PollEffect env c s.now s.voice outcome)
    (hOneshot : s.oneshot = some reply) : (s.polled j outcome).oneshot = some reply := by
  cases hReply : outcome.reply with
  | none => rw [polled_oneshot, hReply, hOneshot]; rfl
  | some reply' =>
    obtain ⟨hRunning, request, rest, hQueue, _⟩ := hPoll.reply hReply
    obtain ⟨_, hNone, _⟩ := hWf.awaited hTask hRunning hQueue
    cases hNone.symm.trans hOneshot

theorem Followed.peered_step (h : s.Followed clientId i k tr) (hWf : s.Wf)
    (hStep : VoiceChannel.step env s e = some (s', o)) (hPeered : s'.taskState i = .peered) :
    Established clientId (tr ++ o) ∨ ∃ addr response,
      s'.await = .control (.establish clientId addr) i ∧ s'.oneshot = some (.init response) := by
  have hBefore (hWas : s.taskState i = .peered) : Established clientId (tr ++ o) ∨
      ∃ addr response, s'.await = .control (.establish clientId addr) i ∧
        s'.oneshot = some (.init response) := by
    rcases h.peered hWas with hEstablished | ⟨addr, response, hAwait, hOneshot⟩
    · exact .inl (hEstablished.append o)
    · cases pends hAwait hStep with
      | ticked millis => exact .inr ⟨addr, response, hAwait, hOneshot⟩
      | polled j branch c outcome hTask hPoll =>
        exact .inr ⟨addr, response, hAwait, polled_kept hWf hTask hPoll hOneshot⟩
      | resumed s' o hResume =>
        obtain ⟨addr', response', hMem⟩ := resume_established hAwait hOneshot hStep
        exact .inl ⟨addr', response', List.mem_append_right _ hMem⟩
      | idled deadline hIdle =>
        -- the timer runs only without a task
        have hHeld : s.held = true := by simp [held, hAwait]
        rw [taskState_eq_stopped (hWf.stopped_of_idle hHeld hIdle i)] at hWas
        cases hWas
  rcases taskState_step (step_effect hStep) h.lt with hSame | ⟨_, c, outcome, rfl, hTask, hPoll, rfl⟩
  · exact hBefore (hSame ▸ hPeered)
  · have hAfter : (s.polled i outcome).spawned[i]? = some outcome.task :=
      getElem?_set_here hTask
    rw [taskState_of hAfter] at hPeered
    rcases hPoll.moves with hSame | hEnded | ⟨_, addr, rest, response, hQueue, hReply⟩
    · exact hBefore ((taskState_of hTask).trans (hSame.symm.trans hPeered))
    · cases hPeered.symm.trans hEnded
    · right
      obtain ⟨hOn, _, hRequest, _⟩ := hWf.awaited hTask hPoll.running hQueue
      obtain ⟨id, tx, hAwait⟩ := Await.establish_of_request hRequest.symm
      rw [hAwait] at hOn
      cases hOn
      -- only an `Establish` of the client itself leads to its task
      cases (h.waits _ _ hAwait).mpr rfl
      exact ⟨addr, response, hAwait, by rw [polled_oneshot, hReply]; rfl⟩

theorem Followed.step (h : s.Followed clientId i k tr) (hWf : s.Wf) (hIndexed : s.Indexed)
    (hDraws : DrawsUnreaped k s e)
    (hOther : ∀ userName draw, e ≠ .control (.openConnection clientId userName) draw)
    (hStep : VoiceChannel.step env s e = some (s', o)) : s'.Followed clientId i k (tr ++ o) where
  task := h.task_step (step_effect hStep)
  place := by
    rcases h.place with hCurrent | hGone
    · exact hCurrent.step hWf hDraws hOther (step_effect hStep)
    · exact .inr (hGone.step (step_effect hStep) h.lt hOther)
  waits := fun _ _ => h.waits_step hWf hIndexed hStep
  ordered := h.ordered_step hWf hStep
  below := h.below_step hWf hStep
  pending := fun _ => h.pending_step hWf hStep
  peered := h.peered_step hWf hStep

theorem followed_opened {userName : String} {draw : Draw}
    (hDraws : DrawsUnreaped draw.sourceId s (.control (.openConnection clientId userName) draw))
    (hStep : step env s (.control (.openConnection clientId userName) draw) = some (s', o)) :
    s'.Followed clientId s.spawned.length draw.sourceId o := by
  obtain ⟨_, hEq⟩ := select_eq_some_iff.mp hStep
  cases hEq
  have hTask : (s.opened clientId userName draw).spawned[s.spawned.length]? =
      some (s.fresh clientId draw) := opened_task rfl
  constructor
  · exact ⟨_, hTask, rfl, rfl⟩
  · left
    constructor
    · exact List.mem_append_right _ (List.mem_singleton_self _)
    · intro t ht hSource
      rcases List.mem_append.mp ht with hOld | hNew
      · exact absurd hSource (hDraws rfl t hOld)
      · rw [List.mem_singleton.mp hNew]
    · exact (opened_client clientId userName draw clientId).trans (if_pos rfl)
    · exact ⟨_, (opened_connection clientId userName draw draw.sourceId).trans (if_pos rfl), rfl⟩
  · exact fun _ _ hAwait => by cases hAwait
  · exact List.Pairwise.nil
  · exact fun _ hMem => by cases hMem
  · exact fun _ hAwait => by cases hAwait
  · intro hPeered
    cases (taskState_of hTask).symm.trans hPeered

/-- Nothing is put into the queue of a task that has ended. -/
theorem running_of_forwarded {sender : SocketAddr} {msg : InternalMsg} (hEffect : Effect env s e s' o)
    (hMem : .forwarded i sender msg ∈ o) : s.taskRunning i = true := by
  cases hEffect with
  | pushed e tx sender' msg' c hAccepts hTask hRunning =>
    rcases List.mem_cons.mp hMem with hPushed | hResult
    · cases hPushed
      exact taskRunning_iff.mpr ⟨c, hTask, hRunning⟩
    · cases List.mem_singleton.mp hResult
  | turned e output result hLooping hSettled hQuiet =>
    rcases List.mem_append.mp hMem with hOutput | hResult
    · cases hQuiet _ hOutput
    · cases List.mem_singleton.mp hResult
  | task tx branch c outcome =>
    obtain ⟨_, _, hOut⟩ := List.mem_map.mp hMem
    cases hOut
  | _ => simp at hMem

theorem Followed.movesForward (h : s.Followed clientId i k tr) (hWf : s.Wf) :
    s.MovesForward env clientId i tr where
  ordered := h.ordered
  established := by
    intro e s' o hStep hMem
    exact (h.reports hWf (answered_status hStep hMem).1).accepted rfl
  silent := by
    intro state hMem hLast e s' o hStep
    have hEnded : s.taskRunning i = false := by
      apply not_running_of_stage
      calc 2 = stage state := hLast.symm
        _ ≤ (s.taskState i).stage := h.below state hMem
    constructor
    · rintro branch rfl
      cases (step_task_none hEnded branch).symm.trans hStep
    · intro sender msg hForwarded
      cases hEnded.symm.trans (running_of_forwarded (step_effect hStep) hForwarded)

/-- The successive answers to `Status` for a client that does not open another connection go
forward, when the source id of its connection is not drawn, then or later, while an unreaped task
has it. -/
theorem status_moves_forward (env : Env) (roomId : Uuid) (now : Instant) (clientId : Uuid)
    (userName : String) (draw : Draw) (before es : List Event) (s₀ s : VoiceChannel)
    (tr₀ tr : List Output)
    (hBefore : Machine.run (VoiceChannel.step env) (new roomId now) before = some (s₀, tr₀))
    (hRun : Machine.run (VoiceChannel.step env) s₀
      (.control (.openConnection clientId userName) draw :: es) = some (s, tr))
    (hOnce : ∀ userName draw, .control (.openConnection clientId userName) draw ∉ es)
    (hDraws : Machine.Along (VoiceChannel.step env) (DrawsUnreaped draw.sourceId) s₀
      (.control (.openConnection clientId userName) draw :: es)) :
    s.MovesForward env clientId s₀.spawned.length tr := by
  obtain ⟨s₁, o, tr₁, hOpen, hRest, rfl⟩ := Machine.run_cons_iff.mp hRun
  have hIndexed : s₀.Indexed := by
    refine Machine.run_invariant (I := Indexed) (by simp [Indexed, new]) ?_ hBefore
    exact fun _ _ _ _ hIndexed hStep => hIndexed.step (step_effect hStep)
  have hOther : Machine.Along (VoiceChannel.step env) (fun _ e =>
      ∀ userName draw, e ≠ .control (.openConnection clientId userName) draw) s₁ es := by
    refine Machine.along_of_prefix hRest fun es₁ e es₂ s₁ s₂ tr₁ o hEq _ _ => ?_
    rintro userName draw rfl
    exact hOnce userName draw (hEq ▸ List.mem_append_right es₁ List.mem_cons_self)
  have hAll : s.Wf ∧ s.Indexed ∧
      s.Followed clientId s₀.spawned.length draw.sourceId (o ++ tr₁) := by
    refine Machine.run_induction_along (P := fun s tr => s.Wf ∧ s.Indexed ∧
      s.Followed clientId s₀.spawned.length draw.sourceId (o ++ tr)) ?_ ?_
      ((hDraws.2 (s₁, o) hOpen).and hOther) hRest
    · have hEffect := step_effect hOpen
      refine ⟨(wf hBefore).step hEffect, hIndexed.step hEffect, ?_⟩
      rw [List.append_nil]
      exact followed_opened hDraws.1 hOpen
    · rintro s tr e s' o' ⟨hWf, hIndexed, hFollowed⟩ ⟨hDraw, hOther⟩ hStep
      have hEffect := step_effect hStep
      refine ⟨hWf.step hEffect, hIndexed.step hEffect, ?_⟩
      rw [← List.append_assoc]
      exact hFollowed.step hWf hIndexed hDraw hOther hStep
  exact hAll.2.2.movesForward hAll.1

/-- Client 1 is seen in each state. -/
def observed : List Event :=
  [.control (.status 1) ⟨0, []⟩, .task 1 .control, .resume,
    .control (.establish 1 ⟨.v4 1, 9⟩) ⟨0, []⟩, .task 1 .control, .resume,
    .control (.status 1) ⟨0, []⟩, .task 1 .control, .resume,
    .control (.leave 1) ⟨0, []⟩, .task 1 .control, .resume,
    .control (.status 1) ⟨0, []⟩, .reap 1, .control (.status 1) ⟨0, []⟩]

theorem status_moves_forward_observed : ∃ s₀ tr₀ s tr,
    Machine.run (VoiceChannel.step .bare) (new 7 0) [.control (.openConnection 2 "b") ⟨11, []⟩] =
      some (s₀, tr₀) ∧
    Machine.run (VoiceChannel.step .bare) s₀
      (.control (.openConnection 1 "a") ⟨10, []⟩ :: observed) = some (s, tr) ∧
    statuses 1 tr = [some .waiting, some .peered, some .stopped, none] ∧
    s.MovesForward .bare 1 1 tr := by
  let before : List Event := [.control (.openConnection 2 "b") ⟨11, []⟩]
  let es : List Event := .control (.openConnection 1 "a") ⟨10, []⟩ :: observed
  have hStatuses : (Machine.run (VoiceChannel.step .bare) (new 7 0) before).bind (fun last =>
      (Machine.run (VoiceChannel.step .bare) last.1 es).map fun last => statuses 1 last.2) =
      some [some .waiting, some .peered, some .stopped, none] := by
    decide
  obtain ⟨⟨s₀, tr₀⟩, hBefore, hAfter⟩ := Option.bind_eq_some_iff.mp hStatuses
  obtain ⟨⟨s, tr⟩, hRun, hReported⟩ := Option.map_eq_some_iff.mp hAfter
  refine ⟨s₀, tr₀, s, tr, hBefore, hRun, hReported, ?_⟩
  have hAlong : Machine.Along (VoiceChannel.step .bare) (DrawsUnreaped 10) (new 7 0) (before ++ es) := by
    decide
  have hTasks : (Machine.run (VoiceChannel.step .bare) (new 7 0) before).map
      (fun last => last.1.spawned.length) = some 1 := by decide
  rw [hBefore] at hTasks
  have hLength : s₀.spawned.length = 1 := Option.some.inj hTasks
  have hMoves := status_moves_forward .bare 7 0 1 "a" ⟨10, []⟩ before observed s₀ s tr₀ tr hBefore
    hRun (by simp [observed]) ((Machine.along_append_iff hBefore).mp hAlong).2
  rwa [hLength] at hMoves

/-- The source id of a peered connection is drawn again for another client. -/
def redrawn : List Event :=
  [.control (.establish 1 ⟨.v4 1, 9⟩) ⟨0, []⟩, .task 0 .control, .resume,
    .control (.status 1) ⟨0, []⟩, .task 0 .control, .resume,
    .control (.openConnection 2 "b") ⟨10, []⟩,
    .control (.status 1) ⟨0, []⟩, .task 1 .control, .resume]

theorem not_status_moves_forward : ¬ ∀ (env : Env) (roomId : Uuid) (now : Instant) (clientId : Uuid)
    (userName : String) (draw : Draw) (before es : List Event) (s₀ s : VoiceChannel)
    (tr₀ tr : List Output),
    Machine.run (VoiceChannel.step env) (new roomId now) before = some (s₀, tr₀) →
    Machine.run (VoiceChannel.step env) s₀
      (.control (.openConnection clientId userName) draw :: es) = some (s, tr) →
    (∀ userName draw, .control (.openConnection clientId userName) draw ∉ es) →
    s.MovesForward env clientId s₀.spawned.length tr := by
  intro hAll
  have hStatuses : (Machine.run (VoiceChannel.step .bare) (new 7 0)
      (.control (.openConnection 1 "a") ⟨10, []⟩ :: redrawn)).map (fun last => statuses 1 last.2) =
      some [some .peered, some .waiting] := by
    decide
  obtain ⟨⟨s, tr⟩, hRun, hReported⟩ := Option.map_eq_some_iff.mp hStatuses
  have hMoves := hAll .bare 7 0 1 "a" ⟨10, []⟩ [] redrawn (new 7 0) s [] tr rfl hRun
    (by simp [redrawn])
  have hOrdered := hMoves.ordered
  rw [hReported] at hOrdered
  revert hOrdered
  decide

end VoiceChannel

end Voices.VoiceServer
