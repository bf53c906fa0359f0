import Voices.VoiceServer.Tables

/-!
# The idle timeout of a channel

`run` makes a new timer in each turn of its loop that begins without voice tasks.
What ends such a turn therefore puts the end of the channel off.
-/

namespace Voices.VoiceServer

open Semantics Std

namespace VoiceChannel

variable {env : Env} {s s' : VoiceChannel} {e : Event} {o : List Output}

/-- A channel with the instant at which its last voice task was reaped, or the forwarder started. -/
structure Watched where
  channel : VoiceChannel
  emptied : Instant

namespace Watched

def new (roomId : Uuid) (now : Instant) : Watched := { channel := .new roomId now, emptied := now }

def next (w : Watched) (s : VoiceChannel) : Watched where
  channel := s
  emptied :=
    if s.forwarder.tasks.isEmpty && !w.channel.forwarder.tasks.isEmpty then s.now else w.emptied

def step (env : Env) (w : Watched) (e : Event) : Option (Watched × List Output) :=
  (VoiceChannel.step env w.channel e).map fun last => (w.next last.1, last.2)

/-- Without voice tasks the channel ends `CHANNEL_IDLE_TIMEOUT` after the last of them was reaped. -/
def TimesOut (w : Watched) : Prop :=
  w.channel.looping = true → w.channel.forwarder.tasks = [] →
    w.channel.idle = some (w.emptied + channelIdleTimeout)

end Watched

/-- The client has a source id that no record has. -/
def Stray (s : VoiceChannel) (clientId : Uuid) : Prop :=
  ∃ srcId, s.forwarder.clientIdToSrcId[clientId]? = some srcId ∧ s.forwarder.connections[srcId]? = none

instance (s : VoiceChannel) (clientId : Uuid) : Decidable (s.Stray clientId) :=
  decidable_of_iff (s.forwarder.clientIdToSrcId[clientId]?.any (s.forwarder.connections[·]?.isNone))
    (by
      unfold Stray
      cases s.forwarder.clientIdToSrcId[clientId]? <;> simp)

/-- The event is handled in the loop, and it is not the opening of a connection. -/
def EndsTurn (env : Env) (s : VoiceChannel) : Event → Prop
  | .datagram _ bytes _ => env.decode bytes ≠ some ⟨none⟩
  | .recvFailed => True
  | .control (.openConnection _ _) _ => False
  | .control (.establish clientId _) _ => ¬ s.Stray clientId
  | .control (.status clientId) _ => ¬ s.Stray clientId
  | .control (.leave _) _ => True
  | .control .peers _ => True
  | _ => False

instance (env : Env) (s : VoiceChannel) : (e : Event) → Decidable (s.EndsTurn env e)
  | .datagram _ bytes _ => inferInstanceAs (Decidable (env.decode bytes ≠ some ⟨none⟩))
  | .recvFailed => .isTrue trivial
  | .control (.openConnection _ _) _ => .isFalse id
  | .control (.establish clientId _) _ => inferInstanceAs (Decidable (¬ s.Stray clientId))
  | .control (.status clientId) _ => inferInstanceAs (Decidable (¬ s.Stray clientId))
  | .control (.leave _) _ => .isTrue trivial
  | .control .peers _ => .isTrue trivial
  | .tick _ => .isFalse id
  | .controlClosed => .isFalse id
  | .reap _ => .isFalse id
  | .resume => .isFalse id
  | .idleTimeout => .isFalse id
  | .notified => .isFalse id
  | .task _ _ => .isFalse id

/-- A turn without voice tasks ends at the instant at which its timer was made. -/
def KeepsTimer (env : Env) (s : VoiceChannel) (e : Event) : Prop :=
  s.await = .event → s.forwarder.tasks = [] → s.EndsTurn env e →
    s.idle = some (s.now + channelIdleTimeout)

instance (env : Env) (s : VoiceChannel) (e : Event) : Decidable (s.KeepsTimer env e) :=
  inferInstanceAs (Decidable (_ → _ → _ → _))

/-- A handler is suspended only while there is a voice task. -/
def Engaged (s : VoiceChannel) : Prop :=
  s.looping = true → s.await ≠ .event → s.forwarder.tasks ≠ []

/-! ### A turn without voice tasks -/

theorem Wf.engaged_of_running (hWf : s.Wf) (hHeld : s.held = true) {tx : TaskId} {c : VoiceConnection}
    (hTask : s.spawned[tx]? = some c) (hRunning : c.running = true) : s.forwarder.tasks ≠ [] := by
  intro hTasks
  have hStopped := hWf.stopped hHeld hTasks tx
  rw [taskRunning_of hTask, hRunning] at hStopped
  cases hStopped

theorem Wf.engaged_step (hWf : s.Wf) (hEngaged : s.Engaged) (h : Effect env s e s' o) : s'.Engaged := by
  intro hLooping hAwait
  cases h with
  | ticked => exact hEngaged hLooping hAwait
  | task => exact hEngaged hLooping hAwait
  | held sender bytes sendOk tx msg c hAccepts hTask hRunning =>
    exact hWf.engaged_of_running (Effect.held_of_looping hAccepts.looping) hTask hRunning
  | bound clientId addr draw srcId conn c hEvent hClient hConn hTask hRunning =>
    exact hWf.engaged_of_running (Effect.held_of_event hEvent) hTask hRunning
  | asked e tx c req await hAsks hSettled hTask hRunning =>
    exact hWf.engaged_of_running (Effect.held_of_looping hAsks.looping) hTask hRunning
  | turned | pushed | opened | unbound | reaped => exact absurd rfl hAwait
  | undone | missing | closed | idled | ended => cases hLooping

/-- The handler has returned and left the tables without tasks: the timer starts anew. -/
structure Restarted (s : VoiceChannel) (r : VoiceChannel × List Output) : Prop where
  looping : r.1.looping = true
  tasks : r.1.forwarder.tasks = []
  now : r.1.now = s.now
  idle : r.1.idle = some (s.now + channelIdleTimeout)

theorem returned_restarted (hTasks : s.forwarder.tasks = []) (result : EventResult)
    (output : List Output) : s.Restarted (s.returned result output) where
  looping := rfl
  tasks := hTasks
  now := rfl
  idle := by simp [returned, turn, hTasks]

variable (hTasks : s.forwarder.tasks = []) (hStopped : ∀ tx, s.taskRunning tx = false)
include hTasks hStopped

theorem forward_restarted (sender : SocketAddr) (sourceId : UInt32) (msg : InternalMsg) :
    s.Restarted (s.forward sender sourceId msg) := by
  unfold forward
  split
  · exact returned_restarted hTasks _ _
  · rename_i conn hConn
    unfold connForward
    split
    · exact returned_restarted hTasks _ _
    · split
      · unfold sendMsg
        split
        · exact returned_restarted hTasks _ _
        · rename_i c hTask
          have hEnded : c.running = false := (taskRunning_of hTask).symm.trans (hStopped conn.tx)
          rw [hEnded]
          exact returned_restarted hTasks _ _
      · exact returned_restarted hTasks _ _

theorem recvDatagram_restarted {sender : SocketAddr} {bytes : List UInt8} {sendOk : Bool}
    (hDecode : env.decode bytes ≠ some ⟨none⟩) :
    s.Restarted (s.recvDatagram env sender bytes sendOk) := by
  unfold recvDatagram
  split
  · rename_i msg hMsg
    unfold socketMsg
    split
    · unfold ipDisco
      split
      · exact returned_restarted hTasks _ _
      · exact returned_restarted hTasks _ _
    · exact forward_restarted hTasks hStopped _ _ _
    · exact forward_restarted hTasks hStopped _ _ _
    · rename_i hNone
      obtain ⟨payload⟩ := msg
      cases hNone
      exact absurd hMsg hDecode
  · exact returned_restarted hTasks _ _

theorem pollPeers_restarted (rest : List (Uuid × Conn)) (peers : List Peer) :
    s.Restarted (s.pollPeers rest peers) := by
  induction rest with
  | nil => exact returned_restarted hTasks _ _
  | cons entry rest ih =>
    unfold pollPeers
    rw [request_eq_none_iff.mpr (hStopped _)]
    exact ih

theorem leave_restarted (clientId : Uuid) : s.Restarted (s.leave clientId) := by
  unfold leave
  split
  · exact returned_restarted hTasks _ _
  · rw [request_eq_none_iff.mpr (hStopped _)]
    exact returned_restarted hTasks _ _

theorem status_restarted {clientId : Uuid} (hStray : ¬ s.Stray clientId) :
    s.Restarted (s.status clientId) := by
  unfold status
  split
  · exact returned_restarted hTasks _ _
  · rename_i srcId hClient
    split
    · rename_i hConn
      exact absurd ⟨srcId, hClient, hConn⟩ hStray
    · rw [request_eq_none_iff.mpr (hStopped _)]
      exact returned_restarted hTasks _ _

theorem establish_restarted {clientId : Uuid} {addr : SocketAddr} (hStray : ¬ s.Stray clientId) :
    s.Restarted (s.establish clientId addr) := by
  unfold establish
  split
  · exact returned_restarted hTasks _ _
  · rename_i srcId hClient
    split
    · rename_i hConn
      exact absurd ⟨srcId, hClient, hConn⟩ hStray
    · rename_i conn hConn
      have hBound : (s.bind srcId conn addr).request conn.ctl.tx (.init addr) = none :=
        request_eq_none_iff.mpr (hStopped _)
      simp only [hBound]
      have hTurn := returned_restarted (s := s.bind srcId conn addr) hTasks .err []
      exact ⟨hTurn.looping, hTurn.tasks, hTurn.now, hTurn.idle⟩

/-- What ends a turn without voice tasks starts the timer anew. -/
theorem EndsTurn.restarted (hEnds : s.EndsTurn env e) {r : VoiceChannel × List Output}
    (hStep : VoiceChannel.step env s e = some r) : s.Restarted r := by
  cases e with
  | datagram sender bytes sendOk =>
    rw [(select_eq_some_iff.mp hStep).2]
    exact recvDatagram_restarted hTasks hStopped hEnds
  | recvFailed =>
    rw [(select_eq_some_iff.mp hStep).2]
    exact returned_restarted hTasks _ _
  | control ctl draw =>
    rw [(select_eq_some_iff.mp hStep).2]
    cases ctl with
    | openConnection => exact hEnds.elim
    | establish clientId addr => exact establish_restarted hTasks hStopped hEnds
    | leave clientId => exact leave_restarted hTasks hStopped clientId
    | peers => exact pollPeers_restarted hTasks hStopped _ _
    | status clientId => exact status_restarted hTasks hStopped hEnds
  | _ => exact hEnds.elim

omit hTasks hStopped

/-- What does not end the turn leaves the timer, ends the loop, or brings a task. -/
theorem not_endsTurn (hTasks : s.forwarder.tasks = []) (hAwait : s.await = .event) (hGoes : ¬ s.EndsTurn env e)
    (hStep : VoiceChannel.step env s e = some (s', o)) :
    s'.looping = false ∨ s'.forwarder.tasks ≠ [] ∨ (s'.forwarder = s.forwarder ∧ s'.idle = s.idle) := by
  cases e with
  | tick millis =>
    cases hStep
    exact .inr (.inr ⟨rfl, rfl⟩)
  | datagram sender bytes sendOk =>
    have hHandled := (select_eq_some_iff.mp hStep).2
    have hDecode : env.decode bytes = some ⟨none⟩ := not_not.mp hGoes
    simp only [recvDatagram, hDecode, socketMsg] at hHandled
    cases hHandled
    exact .inl rfl
  | recvFailed => exact absurd trivial hGoes
  | control ctl draw =>
    have hHandled := (select_eq_some_iff.mp hStep).2
    cases ctl with
    | openConnection clientId userName =>
      cases hHandled
      exact .inr (.inl (List.append_ne_nil_of_right_ne_nil _ (List.cons_ne_nil _ _)))
    | establish clientId addr =>
      obtain ⟨srcId, hClient, hConn⟩ := not_not.mp hGoes
      simp only [controlMsg, establish, hClient, hConn] at hHandled
      cases hHandled
      exact .inl rfl
    | leave clientId => exact absurd trivial hGoes
    | peers => exact absurd trivial hGoes
    | status clientId =>
      obtain ⟨srcId, hClient, hConn⟩ := not_not.mp hGoes
      simp only [controlMsg, status, hClient, hConn] at hHandled
      cases hHandled
      exact .inl rfl
  | controlClosed =>
    cases (select_eq_some_iff.mp hStep).2
    exact .inl rfl
  | reap index =>
    simp only [VoiceChannel.step, hTasks, List.getElem?_nil] at hStep
    cases hStep
  | resume =>
    simp only [VoiceChannel.step, resume, hAwait] at hStep
    cases hStep
  | idleTimeout =>
    simp only [VoiceChannel.step] at hStep
    split at hStep
    · split at hStep
      · cases hStep
        exact .inl rfl
      · cases hStep
    · cases hStep
  | notified =>
    simp only [VoiceChannel.step, hAwait] at hStep
    cases hStep
  | task tx branch =>
    simp only [VoiceChannel.step, pollTask] at hStep
    split at hStep
    · cases hStep
    · obtain ⟨outcome, _, hEq⟩ := Option.map_eq_some_iff.mp hStep
      cases hEq
      exact .inr (.inr ⟨rfl, rfl⟩)

theorem looping_before (h : Effect env s e s' o) (hLooping : s'.looping = true) : s.looping = true := by
  cases h with
  | ticked | task => exact hLooping
  | turned e output result hBefore => exact hBefore
  | asked e tx c req await hAsks => exact hAsks.looping
  | pushed e tx sender msg c hAccepts => exact hAccepts.looping
  | held sender bytes sendOk tx msg c hAccepts => exact hAccepts.looping
  | opened clientId userName draw hAwait => exact looping_of_event hAwait
  | bound clientId addr draw srcId conn c hAwait => exact looping_of_event hAwait
  | unbound clientId addr draw srcId conn hAwait => exact looping_of_event hAwait
  | reaped index task hAwait => exact looping_of_event hAwait
  | undone | missing | closed | idled | ended => cases hLooping

/-- With voice tasks before the step there are some after it, or the last one was reaped. -/
theorem timer_of_tasks (h : Effect env s e s' o) (hSome : s.forwarder.tasks ≠ [])
    (hLooping : s'.looping = true) (hNone : s'.forwarder.tasks = []) :
    s'.idle = some (s'.now + channelIdleTimeout) := by
  cases h with
  | reaped index task hAwait hTask hEnded =>
    exact (returned_restarted (s := s.reaped index task) hNone (.ok true) []).idle
  | opened => exact absurd hNone (List.append_ne_nil_of_right_ne_nil _ (List.cons_ne_nil _ _))
  | undone | missing | ended => cases hLooping
  | _ => exact absurd hNone hSome

namespace Watched

/-- The tables agree and no handler is suspended without a task. -/
structure Regular (w : Watched) : Prop where
  wf : w.channel.Wf
  engaged : w.channel.Engaged

theorem timesOut_step {w w' : Watched} (hRegular : w.Regular) (hTimes : w.TimesOut)
    (hStep : step env w e = some (w', o)) :
    w'.Regular ∧ (w'.TimesOut ↔ KeepsTimer env w.channel e) := by
  obtain ⟨⟨s', o'⟩, hChannel, hEq⟩ := Option.map_eq_some_iff.mp hStep
  cases hEq
  have hEffect := step_effect hChannel
  refine ⟨⟨hRegular.wf.step hEffect, hRegular.wf.engaged_step hRegular.engaged hEffect⟩, ?_⟩
  by_cases hTasks : w.channel.forwarder.tasks = []
  · have hEmptied : (w.next s').emptied = w.emptied := by simp [next, hTasks]
    cases hLooping : w.channel.looping with
    | false =>
      refine ⟨fun _ hAwait => ?_, fun _ hLoops => ?_⟩
      · cases hLooping.symm.trans (looping_of_event hAwait)
      · cases hLooping.symm.trans (looping_before hEffect hLoops)
    | true =>
      have hAwait : w.channel.await = .event := by
        by_contra hBusy
        exact hRegular.engaged hLooping hBusy hTasks
      have hStopped := hRegular.wf.stopped (Effect.held_of_looping hLooping) hTasks
      have hIdle := hTimes hLooping hTasks
      by_cases hEnds : w.channel.EndsTurn env e
      · have hTurn := hEnds.restarted hTasks hStopped hChannel
        constructor
        · intro hKept _ _ _
          rw [hIdle, ← hEmptied, ← hKept hTurn.looping hTurn.tasks]
          exact hTurn.idle
        · intro hPrompt _ _
          rw [hEmptied, ← hIdle, hPrompt hAwait hTasks hEnds]
          exact hTurn.idle
      · refine ⟨fun _ _ _ hGoes => absurd hGoes hEnds, fun _ hLoops hNone => ?_⟩
        obtain hLeft | hSome | ⟨_, hSame⟩ := not_endsTurn hTasks hAwait hEnds hChannel
        · cases hLeft.symm.trans hLoops
        · exact absurd hNone hSome
        · rw [hEmptied, ← hIdle]
          exact hSame
  · refine ⟨fun _ _ hNone => absurd hNone hTasks, fun _ hLoops hNone => ?_⟩
    have hEmptied : (w.next s').emptied = s'.now := by
      have hNone' : s'.forwarder.tasks = [] := hNone
      simp [next, hTasks, hNone']
    rw [hEmptied]
    exact timer_of_tasks hEffect hTasks hLoops hNone

/-- In every state of a run without voice tasks the timeout fires `CHANNEL_IDLE_TIMEOUT` after the
last of them was reaped, or the forwarder started, exactly when no event other than the opening of
a connection was handled without voice tasks at a later instant than that. -/
theorem timesOut_iff (env : Env) (roomId : Uuid) (now : Instant) (es : List Event) (w : Watched)
    (tr : List Output) (hRun : Machine.run (step env) (new roomId now) es = some (w, tr)) :
    (∀ es₁ es₂ w₁ tr₁, es = es₁ ++ es₂ →
        Machine.run (step env) (new roomId now) es₁ = some (w₁, tr₁) → w₁.TimesOut) ↔
      Machine.Along (step env) (fun w e => KeepsTimer env w.channel e) (new roomId now) es := by
  refine Machine.always_iff_along (I := Regular) ?_ ?_ ?_ hRun
  · exact ⟨new_wf roomId now, fun _ hBusy => absurd rfl hBusy⟩
  · exact fun _ _ => rfl
  · exact fun w₁ e w₂ o hRegular hTimes hStep => timesOut_step hRegular hTimes hStep

/-- A connection that is never established, among requests that come at once. -/
def polledAtOnce : List Event :=
  [.recvFailed, .control (.openConnection 1 "a") ⟨10, []⟩, .tick 15000, .task 0 .deadline, .reap 0,
    .control .peers ⟨0, []⟩, .tick 2000]

theorem timesOut_iff_polledAtOnce : ∃ w tr,
    Machine.run (step .bare) (new 7 0) polledAtOnce = some (w, tr) ∧
      ∀ es₁ es₂ w₁ tr₁, polledAtOnce = es₁ ++ es₂ →
        Machine.run (step .bare) (new 7 0) es₁ = some (w₁, tr₁) → w₁.TimesOut := by
  have hEnabled : (Machine.run (step .bare) (new 7 0) polledAtOnce).isSome = true := by decide
  obtain ⟨⟨w, tr⟩, hRun⟩ := Option.isSome_iff_exists.mp hEnabled
  exact ⟨w, tr, hRun, (timesOut_iff .bare 7 0 polledAtOnce w tr hRun).mpr (by decide)⟩

/-- A stranger's datagram after three seconds puts the end off by as much. -/
def stranger : List Event := [.tick 3000, .datagram ⟨.v4 1, 9⟩ [7] true]

theorem not_timesOut : ¬ ∀ (env : Env) (roomId : Uuid) (now : Instant) (es : List Event) (w : Watched)
    (tr : List Output), Machine.run (step env) (new roomId now) es = some (w, tr) → w.TimesOut := by
  intro hAll
  have hLast : (Machine.run (step .bare) (new 7 0) stranger).map (fun last =>
      (last.1.channel.looping, last.1.channel.forwarder.tasks, last.1.channel.idle, last.1.emptied)) =
      some (true, [], some 8000, 0) := by
    decide
  obtain ⟨⟨w, tr⟩, hRun, hState⟩ := Option.map_eq_some_iff.mp hLast
  simp only [Prod.mk.injEq] at hState
  obtain ⟨hLooping, hTasks, hIdle, hEmptied⟩ := hState
  have hTimes := hAll .bare 7 0 stranger w tr hRun hLooping hTasks
  rw [hIdle, hEmptied] at hTimes
  cases hTimes

end Watched

end VoiceChannel

end Voices.VoiceServer
