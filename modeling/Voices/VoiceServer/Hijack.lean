import Voices.Semantics.Insertion
import Voices.VoiceServer.Tables

/-!
# Datagrams from a foreign address

A voice or ping datagram counts only when it comes from the address that is
bound to the source id it names. Any other one ends in a warning: it starts a
new turn of the loop, with a new idle timer, and changes nothing else.
-/

namespace Voices.VoiceServer

open Semantics Std

/-- Everything the outside notices: all outputs but a warning and the return of a handler. -/
def Output.noticed : Output → Bool
  | .forwardFailed _ => false
  | .returned _ => false
  | _ => true

namespace VoiceChannel

/-- A voice or ping datagram whose sender is not the bound address of the connection that its
source id names. -/
def Foreign (env : Env) (s : VoiceChannel) (e : Event) : Prop :=
  ∃ (sender : SocketAddr) (bytes : List UInt8) (sendOk : Bool) (msg : InternalMsg),
    e = .datagram sender bytes sendOk ∧ env.decode bytes = some ⟨some msg.payload⟩ ∧
      ∀ tx, ¬ s.Bound tx sender msg

def timed (s : VoiceChannel) (idle : Option Instant) : VoiceChannel := { s with idle }

@[simp] theorem timed_forwarder (s : VoiceChannel) (idle : Option Instant) :
    (s.timed idle).forwarder = s.forwarder := rfl
@[simp] theorem timed_await (s : VoiceChannel) (idle : Option Instant) :
    (s.timed idle).await = s.await := rfl
@[simp] theorem timed_oneshot (s : VoiceChannel) (idle : Option Instant) :
    (s.timed idle).oneshot = s.oneshot := rfl
@[simp] theorem timed_spawned (s : VoiceChannel) (idle : Option Instant) :
    (s.timed idle).spawned = s.spawned := rfl
@[simp] theorem timed_taskRunning (s : VoiceChannel) (idle : Option Instant) :
    (s.timed idle).taskRunning = s.taskRunning := rfl

/-- Two results that differ in the idle timer only. -/
structure Alike (r r' : VoiceChannel × List Output) : Prop where
  state : ∃ idle, r'.1 = r.1.timed idle
  output : r.2 = r'.2

variable {env : Env} {s s' t t' : VoiceChannel} {e : Event} {o o' : List Output}

theorem Alike.timed (s : VoiceChannel) (idle : Option Instant) (o : List Output) :
    Alike (s, o) (s.timed idle, o) := ⟨⟨idle, rfl⟩, rfl⟩

theorem Alike.returned (s : VoiceChannel) (idle : Option Instant) (result : EventResult)
    (o : List Output) : Alike (s.returned result o) ((s.timed idle).returned result o) :=
  ⟨⟨s.turn.idle, rfl⟩, rfl⟩

theorem Alike.unless {r r' : VoiceChannel × List Output} (h : Alike r r') (stuck : Bool) :
    Option.Rel Alike (if stuck then none else some r) (if stuck then none else some r') := by
  cases stuck with
  | true => exact .none
  | false => exact .some h

theorem sendMsg_alike (s : VoiceChannel) (idle : Option Instant) (tx : TaskId) (sender : SocketAddr)
    (msg : InternalMsg) : Alike (s.sendMsg tx sender msg) ((s.timed idle).sendMsg tx sender msg) := by
  simp only [sendMsg, timed_spawned]
  cases s.spawned[tx]? with
  | none => exact .returned s idle _ _
  | some c =>
    dsimp only
    split
    · split
      · exact .returned (s.setTask tx _) idle _ _
      · exact .timed (s.waiting _) idle []
    · exact .returned s idle _ _

theorem request_timed (s : VoiceChannel) (idle : Option Instant) (tx : TaskId) (req : ControlRequest) :
    (s.timed idle).request tx req = (s.request tx req).map (·.timed idle) := by
  simp only [request, timed]
  cases s.spawned[tx]? with
  | none => rfl
  | some c => cases hRunning : c.running <;> simp [hRunning, setTask]

theorem forward_alike (s : VoiceChannel) (idle : Option Instant) (sender : SocketAddr)
    (sourceId : UInt32) (msg : InternalMsg) :
    Alike (s.forward sender sourceId msg) ((s.timed idle).forward sender sourceId msg) := by
  simp only [forward, timed_forwarder]
  cases s.forwarder.connections[sourceId]? with
  | none => exact .returned s idle _ _
  | some conn =>
    simp only [connForward]
    cases conn.addr with
    | none => exact .returned s idle _ _
    | some addr =>
      by_cases hSame : sameAddr addr sender = true
      · simp only [hSame, if_true]
        exact sendMsg_alike s idle conn.tx sender msg
      · simp only [hSame]
        exact .returned s idle _ _

theorem recvDatagram_alike (s : VoiceChannel) (idle : Option Instant) (sender : SocketAddr)
    (bytes : List UInt8) (sendOk : Bool) :
    Alike (s.recvDatagram env sender bytes sendOk)
      ((s.timed idle).recvDatagram env sender bytes sendOk) := by
  simp only [recvDatagram]
  cases env.decode bytes with
  | none => exact .returned s idle _ _
  | some msg =>
    simp only [socketMsg]
    cases msg.payload with
    | none => exact .timed _ idle _
    | some payload =>
      cases payload with
      | voice voice => exact forward_alike s idle sender voice.sourceId (.voice voice)
      | ping ping => exact forward_alike s idle sender ping.sourceId (.ping ping)
      | ipDisco disco =>
        simp only [ipDisco, timed_forwarder]
        cases s.forwarder.connections[disco.sourceId]? with
        | none => exact .returned s idle _ _
        | some conn => exact .returned s idle _ _

theorem pollPeers_alike (s : VoiceChannel) (idle : Option Instant) (zipped : List (Uuid × Conn))
    (peers : List Peer) : Alike (s.pollPeers zipped peers) ((s.timed idle).pollPeers zipped peers) := by
  induction zipped with
  | nil => exact .returned s idle _ _
  | cons entry rest ih =>
    obtain ⟨id, conn⟩ := entry
    simp only [pollPeers, request_timed]
    cases s.request conn.ctl.tx .status with
    | none => exact ih
    | some asked => exact .timed (asked.waiting (.peers id conn rest peers)) idle []

theorem establish_alike (s : VoiceChannel) (idle : Option Instant) (clientId : Uuid)
    (addr : SocketAddr) :
    Alike (s.establish clientId addr) ((s.timed idle).establish clientId addr) := by
  simp only [establish, timed_forwarder]
  cases s.forwarder.clientIdToSrcId[clientId]? with
  | none => exact .returned s idle _ _
  | some srcId =>
    dsimp only
    cases s.forwarder.connections[srcId]? with
    | none => exact .timed _ idle _
    | some conn =>
      have hBind : (s.timed idle).bind srcId conn addr = (s.bind srcId conn addr).timed idle := rfl
      simp only [hBind, request_timed]
      cases (s.bind srcId conn addr).request conn.ctl.tx (.init addr) with
      | none => exact .returned (s.bind srcId conn addr) idle _ _
      | some asked => exact .timed (asked.waiting _) idle []

theorem leave_alike (s : VoiceChannel) (idle : Option Instant) (clientId : Uuid) :
    Alike (s.leave clientId) ((s.timed idle).leave clientId) := by
  simp only [leave, timed_forwarder]
  cases s.forwarder.clientIdToSrcId[clientId]?.bind (s.forwarder.connections[·]?) with
  | none => exact .returned s idle _ _
  | some conn =>
    simp only [request_timed]
    cases s.request conn.ctl.tx .stop with
    | none => exact .returned s idle _ _
    | some asked => exact .timed (asked.waiting _) idle []

theorem status_alike (s : VoiceChannel) (idle : Option Instant) (clientId : Uuid) :
    Alike (s.status clientId) ((s.timed idle).status clientId) := by
  simp only [status, timed_forwarder]
  cases s.forwarder.clientIdToSrcId[clientId]? with
  | none => exact .returned s idle _ _
  | some srcId =>
    dsimp only
    cases s.forwarder.connections[srcId]? with
    | none => exact .timed _ idle _
    | some conn =>
      simp only [request_timed]
      cases s.request conn.ctl.tx .status with
      | none => exact .returned s idle _ _
      | some asked => exact .timed (asked.waiting _) idle []

theorem controlMsg_alike (s : VoiceChannel) (idle : Option Instant) (draw : Draw) (ctl : ChannelCtl) :
    Alike (s.controlMsg draw ctl) ((s.timed idle).controlMsg draw ctl) := by
  cases ctl with
  | openConnection clientId userName =>
    exact .returned (s.opened clientId userName draw) idle _ _
  | establish clientId addr => exact establish_alike s idle clientId addr
  | leave clientId => exact leave_alike s idle clientId
  | peers => exact pollPeers_alike s idle s.zipped []
  | status clientId => exact status_alike s idle clientId

theorem resumeForward_alike (s : VoiceChannel) (idle : Option Instant) (tx : TaskId)
    (sender : SocketAddr) (msg : InternalMsg) :
    Option.Rel Alike (s.resumeForward tx sender msg) ((s.timed idle).resumeForward tx sender msg) := by
  simp only [resumeForward, timed_spawned]
  cases s.spawned[tx]? with
  | none => exact .some (sendMsg_alike s idle tx sender msg)
  | some c =>
    dsimp only
    split
    · exact .none
    · exact .some (sendMsg_alike s idle tx sender msg)

theorem resumeControl_alike (s : VoiceChannel) (idle : Option Instant) (ctl : ChannelCtl)
    (tx : TaskId) :
    Option.Rel Alike (s.resumeControl ctl tx) ((s.timed idle).resumeControl ctl tx) := by
  have hReturned (result : EventResult) (o : List Output) :
      Alike (s.returned result o) ((s.timed idle).returned result o) := .returned s idle result o
  simp only [resumeControl, timed_oneshot, timed_taskRunning]
  split
  · exact .some (hReturned _ _)
  · exact .some (hReturned _ _)
  · exact .some (hReturned _ _)
  · exact (hReturned _ _).unless _
  · exact (hReturned _ _).unless _
  · exact (hReturned _ _).unless _
  · exact .none

theorem resumePeers_alike (s : VoiceChannel) (idle : Option Instant) (id : Uuid) (conn : Conn)
    (rest : List (Uuid × Conn)) (peers : List Peer) :
    Option.Rel Alike (s.resumePeers id conn rest peers)
      ((s.timed idle).resumePeers id conn rest peers) := by
  simp only [resumePeers, timed_oneshot, timed_taskRunning]
  split
  · exact .some (pollPeers_alike s idle rest _)
  · exact .some (pollPeers_alike s idle rest _)
  · exact (pollPeers_alike s idle rest _).unless _

theorem resume_alike (s : VoiceChannel) (idle : Option Instant) :
    Option.Rel Alike s.resume (s.timed idle).resume := by
  simp only [resume, timed_await]
  cases s.await with
  | forward tx sender msg => exact resumeForward_alike s idle tx sender msg
  | control ctl tx => exact resumeControl_alike s idle ctl tx
  | peers id conn rest peers => exact resumePeers_alike s idle id conn rest peers
  | event | leaving | ended | panicked => exact .none

theorem select_alike {idle : Option Instant} {handled handled' : VoiceChannel × List Output}
    (h : Alike handled handled') :
    Option.Rel Alike (s.select handled) ((s.timed idle).select handled') := by
  simp only [select, timed_await]
  split
  · exact .some h
  · exact .none

theorem Alike.of_rel {x y : Option (VoiceChannel × List Output)} {r r' : VoiceChannel × List Output}
    (hRel : Option.Rel Alike x y) (h : x = some r) (h' : y = some r') : Alike r r' := by
  subst h h'
  cases hRel
  assumption

theorem reap_alike (s : VoiceChannel) (idle : Option Instant) (index : Nat) :
    Option.Rel Alike (step env s (.reap index)) (step env (s.timed idle) (.reap index)) := by
  simp only [step, timed_forwarder, timed_taskRunning]
  cases s.forwarder.tasks[index]? with
  | none => exact .none
  | some task =>
    by_cases hRunning : s.taskRunning task.handle = true
    · simp only [hRunning, if_true]
      exact .none
    · simp only [hRunning, reapTask_eq]
      exact select_alike (.returned (s.reaped index task) idle _ _)

theorem pollTask_alike (s : VoiceChannel) (idle : Option Instant) (tx : TaskId) (branch : Branch) :
    Option.Rel Alike (s.pollTask env tx branch) ((s.timed idle).pollTask env tx branch) := by
  simp only [pollTask, timed_spawned]
  cases s.spawned[tx]? with
  | none => exact .none
  | some c =>
    dsimp only
    change Option.Rel Alike _ ((c.poll env s.now (s.senders tx) s.voice branch).map _)
    cases c.poll env s.now (s.senders tx) s.voice branch with
    | none => exact .none
    | some outcome => exact .some (Alike.timed (s.polled tx outcome) idle _)

theorem idle_step (h : step env s .idleTimeout = some (s', o)) :
    s' = s.waiting .leaving ∧ o = [] := by
  simp only [step] at h
  split at h
  · split at h <;> cases h
    exact ⟨rfl, rfl⟩
  · cases h

theorem notified_step (h : step env s .notified = some (s', o)) :
    s' = s.dropped.waiting .ended ∧ o = [.endNotified s.forwarder.roomId] := by
  simp only [step] at h
  split at h <;> cases h
  exact ⟨rfl, rfl⟩

/-- An event that is taken in two states that differ in the idle timer has the same effect. -/
theorem step_alike {idle : Option Instant} (h : step env s e = some (s', o))
    (h' : step env (s.timed idle) e = some (t', o')) : Alike (s', o) (t', o') := by
  cases e with
  | tick millis =>
    cases h
    cases h'
    exact .timed _ idle []
  | datagram sender bytes sendOk =>
    exact .of_rel (select_alike (recvDatagram_alike s idle sender bytes sendOk)) h h'
  | recvFailed => exact .of_rel (select_alike (.returned s idle _ _)) h h'
  | control ctl draw => exact .of_rel (select_alike (controlMsg_alike s idle draw ctl)) h h'
  | controlClosed => exact .of_rel (select_alike (.timed (s.waiting .leaving) idle _)) h h'
  | reap index => exact .of_rel (reap_alike s idle index) h h'
  | resume => exact .of_rel (resume_alike s idle) h h'
  | idleTimeout =>
    -- each run waits for its own timer, and both have run out
    obtain ⟨rfl, rfl⟩ := idle_step h
    obtain ⟨rfl, rfl⟩ := idle_step h'
    exact .timed (s.waiting .leaving) idle []
  | notified =>
    obtain ⟨rfl, rfl⟩ := notified_step h
    obtain ⟨rfl, rfl⟩ := notified_step h'
    exact .timed (s.dropped.waiting .ended) idle _
  | task tx branch => exact .of_rel (pollTask_alike s idle tx branch) h h'

/-- A foreign datagram is rejected with a warning. -/
theorem Foreign.step (hForeign : s.Foreign env e) (h : VoiceChannel.step env s e = some (s', o)) :
    (∃ idle, s' = s.timed idle) ∧ o.filter Output.noticed = [] := by
  obtain ⟨sender, bytes, sendOk, msg, rfl, hDecode, hUnbound⟩ := hForeign
  obtain ⟨hAwait, hEq⟩ := select_eq_some_iff.mp h
  have hFailed (error : ForwardError) (hResult : (s', o) = s.forwardFailed error) :
      (∃ idle, s' = s.timed idle) ∧ o.filter Output.noticed = [] := by
    cases hResult
    refine ⟨⟨s.turn.idle, ?_⟩, rfl⟩
    simp [turn, timed, hAwait]
  have hForward : s.recvDatagram env sender bytes sendOk = s.forward sender msg.sourceId msg := by
    cases msg <;> simp [recvDatagram, hDecode, socketMsg, InternalMsg.payload, InternalMsg.sourceId]
  rw [hForward, forward] at hEq
  cases hConn : s.forwarder.connections[msg.sourceId]? with
  | none => exact hFailed _ (by simpa [hConn] using hEq)
  | some conn =>
    simp only [hConn, connForward] at hEq
    cases hAddr : conn.addr with
    | none => exact hFailed _ (by simpa [hAddr] using hEq)
    | some addr =>
      have hOther : sameAddr addr sender ≠ true := fun hSame =>
        hUnbound conn.tx ⟨conn, addr, hConn, rfl, hAddr, hSame⟩
      exact hFailed _ (by simpa [hAddr, hOther] using hEq)

/-- A run that also takes foreign datagrams ends in the same tables, tasks, counters and deadlines,
and says the same to the outside; only the idle timer may differ. -/
theorem hijack_free (env : Env) (s s' t' : VoiceChannel) (es fs : List Event)
    (tr tr' : List Output) (hRun : Machine.run (VoiceChannel.step env) s es = some (s', tr))
    (hRun' : Machine.run (VoiceChannel.step env) s fs = some (t', tr'))
    (hInserts : Machine.Inserts (VoiceChannel.step env) (Foreign env) s es fs) :
    (∃ idle, t' = { s' with idle }) ∧ tr.filter Output.noticed = tr'.filter Output.noticed := by
  refine hInserts.run_eq (R := fun s t => ∃ idle, t = s.timed idle) ?_ ?_ ⟨s.idle, rfl⟩ hRun hRun'
  · rintro s t e s' t' o o' ⟨idle, rfl⟩ h h'
    obtain ⟨hState, hOutput⟩ := step_alike h h'
    exact ⟨hState, hOutput⟩
  · rintro s t e t' o ⟨idle, rfl⟩ hForeign h
    obtain ⟨⟨idle', rfl⟩, hHidden⟩ := hForeign.step h
    exact ⟨⟨idle', rfl⟩, hHidden⟩

def spokenTo : List Event :=
  [.control (.openConnection 1 "a") ⟨10, [7]⟩, .control (.establish 1 ⟨.v4 1, 9⟩) ⟨0, []⟩,
    .task 0 .control, .resume, .datagram ⟨.v4 1, 9⟩ (Env.spoken 10 7 1) true, .task 0 (.message true)]

/-- A stranger speaks under the client's source id in between. -/
def spokenOver : List Event :=
  spokenTo.take 4 ++ .datagram ⟨.v4 2, 9⟩ (Env.spoken 10 7 1) true :: spokenTo.drop 4

theorem hijack_free_spokenOver : ∃ s' t' tr tr',
    Machine.run (VoiceChannel.step .bare) (new 7 0) spokenTo = some (s', tr) ∧
      Machine.run (VoiceChannel.step .bare) (new 7 0) spokenOver = some (t', tr') ∧
      (∃ idle, t' = { s' with idle }) ∧
      tr.filter Output.noticed = tr'.filter Output.noticed := by
  have hInserts : Machine.Inserts (VoiceChannel.step .bare) (Foreign .bare) (new 7 0) spokenTo
      spokenOver := by
    refine .common rfl (.common rfl (.common rfl (.common rfl (.inserted ?_ rfl
      (.common rfl (.common rfl (.nil _)))))))
    refine ⟨⟨.v4 2, 9⟩, Env.spoken 10 7 1, true, .voice ⟨0, 0, 10, (Env.spoken 10 7 1).drop 6⟩, rfl,
      rfl, ?_⟩
    rintro tx ⟨conn, addr, hConn, _, hAddr, hSame⟩
    cases hConn
    cases hAddr
    revert hSame
    decide
  have hEnabled : (Machine.run (VoiceChannel.step .bare) (new 7 0) spokenTo).isSome = true := by
    decide
  have hEnabled' : (Machine.run (VoiceChannel.step .bare) (new 7 0) spokenOver).isSome = true := by
    decide
  obtain ⟨⟨s', tr⟩, hRun⟩ := Option.isSome_iff_exists.mp hEnabled
  obtain ⟨⟨t', tr'⟩, hRun'⟩ := Option.isSome_iff_exists.mp hEnabled'
  exact ⟨s', t', tr, tr', hRun, hRun',
    hijack_free .bare (new 7 0) s' t' spokenTo spokenOver tr tr' hRun hRun' hInserts⟩

end VoiceChannel

end Voices.VoiceServer
