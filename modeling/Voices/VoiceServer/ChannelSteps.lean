import Voices.Semantics.Indexed
import Voices.VoiceServer.Forwarder
import Voices.VoiceServer.TaskSteps

/-!
# What one step of a voice channel can do

`Effect` lists the effects of an event on the forwarder and its tasks, with
the facts under which the handlers have them. Statements about runs are shown
by cases on it.
-/

namespace Voices.VoiceServer

open Semantics Std

/-- The task whose answer a handler waits for. -/
def Await.on : Await → Option TaskId
  | .control _ tx => some tx
  | .peers _ conn _ _ => some conn.ctl.tx
  | _ => none

def Await.request : Await → ControlRequest
  | .control (.establish _ addr) _ => .init addr
  | .control (.leave _) _ => .stop
  | _ => .status

/-- The handler is one that sends requests to tasks. -/
def Await.answerable : Await → Bool
  | .control (.establish _ _) _ => true
  | .control (.leave _) _ => true
  | .control (.status _) _ => true
  | .peers _ _ _ _ => true
  | _ => false

def InternalMsg.sourceId : InternalMsg → UInt32
  | .voice v => v.sourceId
  | .ping p => p.sourceId

def InternalMsg.payload : InternalMsg → ClientPayload
  | .voice v => .voice v
  | .ping p => .ping p

/-- Outputs that no statement about a run speaks of one by one. -/
def Output.quiet : Output → Bool
  | .answered (.openConnection _ _) _ => false
  | .answered _ _ => true
  | .forwardFailed _ => true
  | .sent _ _ => true
  | _ => false

def Output.outcome : Output → Bool
  | .returned _ => true
  | .panicked => true
  | _ => false

theorem Output.find_outcome_task (tx : TaskId) (output : List TaskOutput) :
    (output.map (Output.task tx)).find? Output.outcome = none := by
  rw [List.find?_eq_none]
  intro out hMem
  obtain ⟨_, _, rfl⟩ := List.mem_map.mp hMem
  simp [Output.outcome]

namespace VoiceChannel

/-- A request is put into the queue of a task; its answer is not there yet. -/
def asking (s : VoiceChannel) (tx : TaskId) (c : VoiceConnection) (request : ControlRequest) :
    VoiceChannel :=
  { s.setTask tx { c with controlChan := c.controlChan ++ [request] } with oneshot := none }

def waiting (s : VoiceChannel) (await : Await) : VoiceChannel := { s with await }

def opened (s : VoiceChannel) (clientId : Uuid) (userName : String) (draw : Draw) : VoiceChannel :=
  let (control, task, spawned) :=
    VoiceConnection.start clientId userName draw s.spawned.length s.now
  { s with
    spawned := s.spawned ++ [spawned]
    forwarder := { s.forwarder with
      tasks := s.forwarder.tasks ++ [task]
      connections := s.forwarder.connections.insert control.sourceId (Conn.new control)
      clientIdToSrcId := s.forwarder.clientIdToSrcId.insert clientId control.sourceId } }

def reaped (s : VoiceChannel) (index : Nat) (task : VoiceTask) : VoiceChannel :=
  { s with forwarder := { s.forwarder with
      tasks := s.forwarder.tasks.eraseIdx index
      clientIdToSrcId :=
        if s.forwarder.clientIdToSrcId[task.clientId]? = some task.srcId
        then s.forwarder.clientIdToSrcId.erase task.clientId else s.forwarder.clientIdToSrcId
      connections :=
        if s.forwarder.clientIdToSrcId[task.clientId]? = none
        then s.forwarder.connections else s.forwarder.connections.erase task.srcId } }

def polled (s : VoiceChannel) (tx : TaskId) (outcome : Outcome) : VoiceChannel :=
  { s.setTask tx outcome.task with
    oneshot := outcome.reply <|> s.oneshot
    voice := s.voice ++ outcome.voice.toList }

section Projections

variable (s : VoiceChannel) (tx : TaskId) (c : VoiceConnection) (req : ControlRequest) (await : Await)
  (outcome : Outcome)

@[simp] theorem turn_spawned : s.turn.spawned = s.spawned := rfl
@[simp] theorem turn_forwarder : s.turn.forwarder = s.forwarder := rfl
@[simp] theorem turn_await : s.turn.await = .event := rfl
@[simp] theorem turn_voice : s.turn.voice = s.voice := rfl
@[simp] theorem waiting_spawned : (s.waiting await).spawned = s.spawned := rfl
@[simp] theorem waiting_forwarder : (s.waiting await).forwarder = s.forwarder := rfl
@[simp] theorem waiting_await : (s.waiting await).await = await := rfl
@[simp] theorem waiting_voice : (s.waiting await).voice = s.voice := rfl
@[simp] theorem waiting_oneshot : (s.waiting await).oneshot = s.oneshot := rfl
@[simp] theorem setTask_spawned : (s.setTask tx c).spawned = s.spawned.set tx c := rfl
@[simp] theorem setTask_forwarder : (s.setTask tx c).forwarder = s.forwarder := rfl
@[simp] theorem setTask_voice : (s.setTask tx c).voice = s.voice := rfl
@[simp] theorem asking_spawned : (s.asking tx c req).spawned =
    s.spawned.set tx { c with controlChan := c.controlChan ++ [req] } := rfl
@[simp] theorem asking_forwarder : (s.asking tx c req).forwarder = s.forwarder := rfl
@[simp] theorem asking_voice : (s.asking tx c req).voice = s.voice := rfl
@[simp] theorem asking_oneshot : (s.asking tx c req).oneshot = none := rfl
@[simp] theorem polled_spawned : (s.polled tx outcome).spawned = s.spawned.set tx outcome.task := rfl
@[simp] theorem polled_forwarder : (s.polled tx outcome).forwarder = s.forwarder := rfl
@[simp] theorem polled_await : (s.polled tx outcome).await = s.await := rfl
@[simp] theorem polled_voice :
    (s.polled tx outcome).voice = s.voice ++ outcome.voice.toList := rfl
@[simp] theorem polled_oneshot : (s.polled tx outcome).oneshot = (outcome.reply <|> s.oneshot) := rfl
@[simp] theorem bind_spawned (srcId : UInt32) (conn : Conn) (addr : SocketAddr) :
    (s.bind srcId conn addr).spawned = s.spawned := rfl
@[simp] theorem bind_voice (srcId : UInt32) (conn : Conn) (addr : SocketAddr) :
    (s.bind srcId conn addr).voice = s.voice := rfl
@[simp] theorem reaped_spawned (index : Nat) (task : VoiceTask) :
    (s.reaped index task).spawned = s.spawned := rfl
@[simp] theorem reaped_voice (index : Nat) (task : VoiceTask) :
    (s.reaped index task).voice = s.voice := rfl
@[simp] theorem panic_spawned : s.panic.1.spawned = s.spawned := rfl
@[simp] theorem panic_await : s.panic.1.await = .panicked := rfl
@[simp] theorem panic_voice : s.panic.1.voice = s.voice := rfl
@[simp] theorem dropped_spawned : s.dropped.spawned = s.spawned := rfl
@[simp] theorem dropped_voice : s.dropped.voice = s.voice := rfl

end Projections

/-- The answer of the awaited task is there, or will never come. -/
def Settled (s : VoiceChannel) : Prop :=
  ∀ tx, s.await.on = some tx → s.oneshot ≠ none ∨ s.taskRunning tx = false

/-- The handler of a control message begins, or goes on through the zipped tables. -/
def Asks (s : VoiceChannel) (e : Event) : Prop :=
  (s.await = .event ∧ ∃ ctl draw, e = .control ctl draw) ∨
    (e = .resume ∧ ∃ id conn rest peers, s.await = .peers id conn rest peers)

/-- The checks of `Forwarder::forward` and `Conn::forward`: the message names the source id of
a record whose bound address is that of the sender. -/
def Bound (s : VoiceChannel) (tx : TaskId) (sender : SocketAddr) (msg : InternalMsg) : Prop :=
  ∃ conn addr, s.forwarder.connections[msg.sourceId]? = some conn ∧ conn.tx = tx ∧
    conn.addr = some addr ∧ sameAddr addr sender = true

/-- A message for a task from a datagram now received, or from the one that the forwarder holds. -/
inductive Accepts (env : Env) (s : VoiceChannel) :
    Event → TaskId → SocketAddr → InternalMsg → Prop where
  | received (tx : TaskId) (sender : SocketAddr) (bytes : List UInt8) (sendOk : Bool)
      (msg : InternalMsg) (hAwait : s.await = .event)
      (hDecode : env.decode bytes = some ⟨some msg.payload⟩) (hBound : s.Bound tx sender msg) :
      Accepts env s (.datagram sender bytes sendOk) tx sender msg
  | held (tx : TaskId) (sender : SocketAddr) (msg : InternalMsg)
      (hAwait : s.await = .forward tx sender msg) : Accepts env s .resume tx sender msg

section Requests

variable {s s' : VoiceChannel} {tx : TaskId} {req : ControlRequest}

theorem taskRunning_iff :
    s.taskRunning tx = true ↔ ∃ c, s.spawned[tx]? = some c ∧ c.running = true := by
  unfold taskRunning
  cases s.spawned[tx]? <;> simp

theorem taskRunning_of {c : VoiceConnection} (hTask : s.spawned[tx]? = some c) :
    s.taskRunning tx = c.running := by
  simp [taskRunning, hTask]

theorem request_eq_some_iff :
    s.request tx req = some s' ↔
      ∃ c, s.spawned[tx]? = some c ∧ c.running = true ∧ s' = s.asking tx c req := by
  unfold request
  cases hTask : s.spawned[tx]? with
  | none => simp
  | some c =>
    cases hRunning : c.running with
    | false => simp [hRunning]
    | true =>
      simp only [if_true, Option.some.injEq, exists_eq_left', hRunning, true_and, asking]
      exact eq_comm

theorem request_eq_none_iff : s.request tx req = none ↔ s.taskRunning tx = false := by
  unfold request taskRunning
  cases hTask : s.spawned[tx]? with
  | none => simp
  | some c => cases hRunning : c.running <;> simp [hRunning]

end Requests

end VoiceChannel

open VoiceChannel in
inductive Effect (env : Env) (s : VoiceChannel) : Event → VoiceChannel → List Output → Prop where
  | ticked (millis : Nat) : Effect env s (.tick millis) { s with now := s.now + millis } []
  | task (tx : TaskId) (branch : Branch) (c : VoiceConnection) (outcome : Outcome)
      (hTask : s.spawned[tx]? = some c) (hPoll : PollEffect env c s.now s.voice outcome) :
      Effect env s (.task tx branch) (s.polled tx outcome) (outcome.output.map (.task tx))
  /-- A handler comes to its end and leaves tables and tasks as they are. -/
  | turned (e : Event) (output : List Output) (result : EventResult) (hLooping : s.looping = true)
      (hSettled : s.Settled) (hQuiet : ∀ o ∈ output, o.quiet = true)
      (hResult : result = .ok true ∨
        ∃ clientId addr tx, s.await = .control (.establish clientId addr) tx ∧ result = .err) :
      Effect env s e s.turn (output ++ [.returned result])
  | pushed (e : Event) (tx : TaskId) (sender : SocketAddr) (msg : InternalMsg) (c : VoiceConnection)
      (hAccepts : Accepts env s e tx sender msg) (hTask : s.spawned[tx]? = some c)
      (hRunning : c.running = true) (hRoom : c.msgRx.length < msgCapacity) :
      Effect env s e (s.setTask tx { c with msgRx := c.msgRx ++ [msg] }).turn
        [.forwarded tx sender msg, .returned (.ok true)]
  | held (sender : SocketAddr) (bytes : List UInt8) (sendOk : Bool) (tx : TaskId)
      (msg : InternalMsg) (c : VoiceConnection)
      (hAccepts : Accepts env s (.datagram sender bytes sendOk) tx sender msg)
      (hTask : s.spawned[tx]? = some c) (hRunning : c.running = true)
      (hFull : msgCapacity ≤ c.msgRx.length) :
      Effect env s (.datagram sender bytes sendOk) (s.waiting (.forward tx sender msg)) []
  | undone (sender : SocketAddr) (bytes : List UInt8) (sendOk : Bool) (hAwait : s.await = .event)
      (hDecode : env.decode bytes = some ⟨none⟩) :
      Effect env s (.datagram sender bytes sendOk) s.panic.1 [.panicked]
  | missing (ctl : ChannelCtl) (draw : Draw) (clientId : Uuid) (srcId : UInt32)
      (hAwait : s.await = .event) (hClient : s.forwarder.clientIdToSrcId[clientId]? = some srcId)
      (hConn : s.forwarder.connections[srcId]? = none) :
      Effect env s (.control ctl draw) s.panic.1 [.panicked]
  | opened (clientId : Uuid) (userName : String) (draw : Draw) (hAwait : s.await = .event) :
      Effect env s (.control (.openConnection clientId userName) draw)
        (s.opened clientId userName draw).turn
        [.answered (.openConnection clientId userName) (.opened draw.sourceId), .returned (.ok true)]
  | bound (clientId : Uuid) (addr : SocketAddr) (draw : Draw) (srcId : UInt32) (conn : Conn)
      (c : VoiceConnection) (hAwait : s.await = .event)
      (hClient : s.forwarder.clientIdToSrcId[clientId]? = some srcId)
      (hConn : s.forwarder.connections[srcId]? = some conn)
      (hTask : s.spawned[conn.ctl.tx]? = some c) (hRunning : c.running = true) :
      Effect env s (.control (.establish clientId addr) draw)
        (((s.bind srcId conn addr).asking conn.ctl.tx c (.init addr)).waiting
          (.control (.establish clientId addr) conn.ctl.tx)) []
  | unbound (clientId : Uuid) (addr : SocketAddr) (draw : Draw) (srcId : UInt32) (conn : Conn)
      (hAwait : s.await = .event) (hClient : s.forwarder.clientIdToSrcId[clientId]? = some srcId)
      (hConn : s.forwarder.connections[srcId]? = some conn)
      (hStopped : s.taskRunning conn.ctl.tx = false) :
      Effect env s (.control (.establish clientId addr) draw) (s.bind srcId conn addr).turn
        [.returned .err]
  /-- A `Status` or a `Stop` is sent, as the first request of a handler or as its next one. -/
  | asked (e : Event) (tx : TaskId) (c : VoiceConnection) (req : ControlRequest) (await : Await)
      (hAsks : s.Asks e) (hSettled : s.Settled) (hTask : s.spawned[tx]? = some c)
      (hRunning : c.running = true) (hOn : await.on = some tx) (hRequest : await.request = req)
      (hReq : req = .status ∨
        (req = .stop ∧ s.await = .event ∧ ∃ clientId draw srcId conn,
          e = .control (.leave clientId) draw ∧ await = .control (.leave clientId) tx ∧
          s.forwarder.clientIdToSrcId[clientId]? = some srcId ∧
          s.forwarder.connections[srcId]? = some conn ∧ conn.ctl.tx = tx))
      (hAnswerable : await.answerable = true) :
      Effect env s e ((s.asking tx c req).waiting await) []
  | reaped (index : Nat) (task : VoiceTask) (hAwait : s.await = .event)
      (hTask : s.forwarder.tasks[index]? = some task) (hEnded : s.taskRunning task.handle = false) :
      Effect env s (.reap index) (s.reaped index task).turn [.returned (.ok true)]
  | closed (hAwait : s.await = .event) :
      Effect env s .controlClosed (s.waiting .leaving) [.returned (.ok false)]
  | idled (deadline : Instant) (hLooping : s.looping = true) (hIdle : s.idle = some deadline)
      (hLe : deadline ≤ s.now) : Effect env s .idleTimeout (s.waiting .leaving) []
  | ended (hAwait : s.await = .leaving) :
      Effect env s .notified (s.dropped.waiting .ended) [.endNotified s.forwarder.roomId]

/-- Only a step of the task itself lets something of it be seen. -/
theorem Effect.of_task {env : Env} {s s' : VoiceChannel} {e : Event} {o : List Output}
    (h : Effect env s e s' o) {tx : TaskId} {output : TaskOutput} (hMem : .task tx output ∈ o) :
    ∃ (c : VoiceConnection) (outcome : Outcome), s.spawned[tx]? = some c ∧
      PollEffect env c s.now s.voice outcome ∧ output ∈ outcome.output ∧ s' = s.polled tx outcome := by
  cases h with
  | task tx' branch c outcome hTask hPoll =>
    obtain ⟨output', hOutput, hEq⟩ := List.mem_map.mp hMem
    cases hEq
    exact ⟨c, outcome, hTask, hPoll, hOutput, rfl⟩
  | turned e output result hLooping hSettled hQuiet =>
    rcases List.mem_append.mp hMem with hMem | hMem
    · cases hQuiet _ hMem
    · cases List.mem_singleton.mp hMem
  | _ => simp at hMem

namespace VoiceChannel

variable {env : Env} {s s' : VoiceChannel} {o : List Output} {sender : SocketAddr} {bytes : List UInt8}
  {sendOk : Bool}

theorem settled_of_event (hAwait : s.await = .event) : s.Settled := by
  intro tx hOn
  rw [hAwait] at hOn
  cases hOn

theorem looping_of_event (hAwait : s.await = .event) : s.looping = true := by
  simp [looping, hAwait]

theorem Asks.looping {e : Event} (h : s.Asks e) : s.looping = true := by
  rcases h with ⟨hAwait, _⟩ | ⟨_, _, _, _, _, hAwait⟩ <;> simp [VoiceChannel.looping, hAwait]

theorem Accepts.looping {e : Event} {tx : TaskId} {msg : InternalMsg}
    (h : Accepts env s e tx sender msg) : s.looping = true := by
  cases h with
  | received tx sender bytes sendOk msg hAwait => exact looping_of_event hAwait
  | held tx sender msg hAwait => simp [VoiceChannel.looping, hAwait]

/-- A datagram is taken in the loop. -/
theorem Accepts.await_eq {tx : TaskId} {sender' : SocketAddr} {msg : InternalMsg}
    (h : Accepts env s (.datagram sender bytes sendOk) tx sender' msg) : s.await = .event := by
  cases h with
  | received tx sender bytes sendOk msg hAwait => exact hAwait

/-- A handler that starts in `event` and only answers. -/
theorem quiet_effect {e : Event} (hAwait : s.await = .event) (output : List Output)
    (hQuiet : ∀ o ∈ output, o.quiet = true) :
    Effect env s e (s.returned (.ok true) output).1 (s.returned (.ok true) output).2 :=
  .turned e output (.ok true) (looping_of_event hAwait) (settled_of_event hAwait) hQuiet (.inl rfl)

theorem sendMsg_effect {e : Event} {tx : TaskId} {msg : InternalMsg} (hLooping : s.looping = true)
    (hSettled : s.Settled) (hAccepts : Accepts env s e tx sender msg)
    (hFull : ∀ c, s.spawned[tx]? = some c → c.running = true → msgCapacity ≤ c.msgRx.length →
      ∃ bytes sendOk, e = .datagram sender bytes sendOk) :
    Effect env s e (s.sendMsg tx sender msg).1 (s.sendMsg tx sender msg).2 := by
  have hStopped : Effect env s e (s.forwardFailed .stopped).1 (s.forwardFailed .stopped).2 :=
    .turned e [.forwardFailed .stopped] (.ok true) hLooping hSettled (by simp [Output.quiet]) (.inl rfl)
  unfold sendMsg
  cases hTask : s.spawned[tx]? with
  | none => exact hStopped
  | some c =>
    cases hRunning : c.running with
    | false =>
      simp only [hRunning, Bool.false_eq_true, if_false]
      exact hStopped
    | true =>
      by_cases hRoom : c.msgRx.length < msgCapacity
      · simp only [hRunning, hRoom, if_true]
        exact .pushed e tx sender msg c hAccepts hTask hRunning hRoom
      · simp only [hRunning, hRoom, if_true, if_false]
        obtain ⟨bytes, sendOk, rfl⟩ := hFull c hTask hRunning (Nat.not_lt.mp hRoom)
        exact .held sender bytes sendOk tx msg c hAccepts hTask hRunning (Nat.not_lt.mp hRoom)

theorem forward_effect (msg : InternalMsg) (hAwait : s.await = .event)
    (hDecode : env.decode bytes = some ⟨some msg.payload⟩) :
    Effect env s (.datagram sender bytes sendOk) (s.forward sender msg.sourceId msg).1
      (s.forward sender msg.sourceId msg).2 := by
  unfold forward
  cases hConn : s.forwarder.connections[msg.sourceId]? with
  | none => exact quiet_effect hAwait _ (by simp [Output.quiet])
  | some conn =>
    simp only [connForward]
    cases hAddr : conn.addr with
    | none => exact quiet_effect hAwait _ (by simp [Output.quiet])
    | some addr =>
      cases hSame : sameAddr addr sender with
      | false =>
        simp only [hSame, Bool.false_eq_true, if_false]
        exact quiet_effect hAwait _ (by simp [Output.quiet])
      | true =>
        simp only [hSame, if_true]
        have hBound : s.Bound conn.tx sender msg := ⟨conn, addr, hConn, rfl, hAddr, hSame⟩
        exact sendMsg_effect (looping_of_event hAwait) (settled_of_event hAwait)
          (.received conn.tx sender bytes sendOk msg hAwait hDecode hBound)
          fun _ _ _ _ => ⟨bytes, sendOk, rfl⟩

theorem ipDisco_effect {e : Event} {disco : IpDiscoveryRequest} (hAwait : s.await = .event) :
    Effect env s e (s.ipDisco sender disco sendOk).1 (s.ipDisco sender disco sendOk).2 := by
  unfold ipDisco
  split
  · refine quiet_effect hAwait _ ?_
    cases sendOk <;> simp [Output.quiet]
  · exact quiet_effect hAwait _ (by simp)

theorem recvDatagram_effect (hAwait : s.await = .event) :
    Effect env s (.datagram sender bytes sendOk) (s.recvDatagram env sender bytes sendOk).1
      (s.recvDatagram env sender bytes sendOk).2 := by
  unfold recvDatagram
  cases hDecode : env.decode bytes with
  | none => exact quiet_effect hAwait _ (by simp)
  | some msg =>
    obtain ⟨payload⟩ := msg
    simp only [socketMsg]
    cases payload with
    | none => exact .undone sender bytes sendOk hAwait hDecode
    | some payload =>
      cases payload with
      | ipDisco disco => exact ipDisco_effect hAwait
      | voice voice => exact forward_effect (.voice voice) hAwait hDecode
      | ping ping => exact forward_effect (.ping ping) hAwait hDecode

theorem establish_effect {clientId : Uuid} {addr : SocketAddr} {draw : Draw}
    (hAwait : s.await = .event) :
    Effect env s (.control (.establish clientId addr) draw) (s.establish clientId addr).1
      (s.establish clientId addr).2 := by
  unfold establish
  cases hClient : s.forwarder.clientIdToSrcId[clientId]? with
  | none => exact quiet_effect hAwait _ (by simp [Output.quiet])
  | some srcId =>
    simp only
    cases hConn : s.forwarder.connections[srcId]? with
    | none => exact .missing _ draw clientId srcId hAwait hClient hConn
    | some conn =>
      simp only
      cases hAsked : (s.bind srcId conn addr).request conn.ctl.tx (.init addr) with
      | none =>
        have hStopped : (s.bind srcId conn addr).taskRunning conn.ctl.tx = false :=
          request_eq_none_iff.mp hAsked
        exact .unbound clientId addr draw srcId conn hAwait hClient hConn hStopped
      | some asked =>
        obtain ⟨c, hTask, hRunning, rfl⟩ := request_eq_some_iff.mp hAsked
        exact .bound clientId addr draw srcId conn c hAwait hClient hConn hTask hRunning

theorem pollPeers_effect {e : Event} (hAsks : s.Asks e) (hSettled : s.Settled)
    (rest : List (Uuid × Conn)) (peers : List Peer) :
    Effect env s e (s.pollPeers rest peers).1 (s.pollPeers rest peers).2 := by
  induction rest with
  | nil => exact .turned e _ (.ok true) hAsks.looping hSettled (by simp [Output.quiet]) (.inl rfl)
  | cons entry rest ih =>
    obtain ⟨id, conn⟩ := entry
    unfold pollPeers
    cases hAsked : s.request conn.ctl.tx .status with
    | none => exact ih
    | some asked =>
      obtain ⟨c, hTask, hRunning, rfl⟩ := request_eq_some_iff.mp hAsked
      exact .asked e conn.ctl.tx c .status (.peers id conn rest peers) hAsks hSettled hTask hRunning
        rfl rfl (.inl rfl) rfl

theorem leave_effect {clientId : Uuid} {draw : Draw} (hAwait : s.await = .event) :
    Effect env s (.control (.leave clientId) draw) (s.leave clientId).1 (s.leave clientId).2 := by
  unfold leave
  split
  · exact quiet_effect hAwait _ (by simp [Output.quiet])
  · rename_i conn hFound
    obtain ⟨srcId, hClient, hConn⟩ := Option.bind_eq_some_iff.mp hFound
    cases hAsked : s.request conn.ctl.tx .stop with
    | none => exact quiet_effect hAwait _ (by simp [Output.quiet])
    | some asked =>
      obtain ⟨c, hTask, hRunning, rfl⟩ := request_eq_some_iff.mp hAsked
      exact .asked _ conn.ctl.tx c .stop _ (.inl ⟨hAwait, _, draw, rfl⟩) (settled_of_event hAwait) hTask
        hRunning rfl rfl
        (.inr ⟨rfl, hAwait, clientId, draw, srcId, conn, rfl, rfl, hClient, hConn, rfl⟩) rfl

theorem status_effect {clientId : Uuid} {draw : Draw} (hAwait : s.await = .event) :
    Effect env s (.control (.status clientId) draw) (s.status clientId).1 (s.status clientId).2 := by
  unfold status
  cases hClient : s.forwarder.clientIdToSrcId[clientId]? with
  | none => exact quiet_effect hAwait _ (by simp [Output.quiet])
  | some srcId =>
    simp only
    cases hConn : s.forwarder.connections[srcId]? with
    | none => exact .missing _ draw clientId srcId hAwait hClient hConn
    | some conn =>
      simp only
      cases hAsked : s.request conn.ctl.tx .status with
      | none => exact quiet_effect hAwait _ (by simp [Output.quiet])
      | some asked =>
        obtain ⟨c, hTask, hRunning, rfl⟩ := request_eq_some_iff.mp hAsked
        exact .asked _ conn.ctl.tx c .status _ (.inl ⟨hAwait, _, draw, rfl⟩) (settled_of_event hAwait) hTask
          hRunning rfl rfl (.inl rfl) rfl

theorem controlMsg_effect {ctl : ChannelCtl} {draw : Draw} (hAwait : s.await = .event) :
    Effect env s (.control ctl draw) (s.controlMsg draw ctl).1 (s.controlMsg draw ctl).2 := by
  cases ctl with
  | openConnection clientId userName => exact .opened clientId userName draw hAwait
  | establish clientId addr => exact establish_effect hAwait
  | leave clientId => exact leave_effect hAwait
  | peers => exact pollPeers_effect (.inl ⟨hAwait, _, draw, rfl⟩) (settled_of_event hAwait) _ _
  | status clientId => exact status_effect hAwait

theorem reapTask_eq (index : Nat) (task : VoiceTask) :
    s.reapTask index task = (s.reaped index task).returned (.ok true) [] := by
  unfold reapTask reaped
  cases hClient : s.forwarder.clientIdToSrcId[task.clientId]? with
  | none => simp [hClient]
  | some srcId => simp [hClient]

theorem resumeControl_effect {ctl : ChannelCtl} {tx : TaskId} {r : VoiceChannel × List Output}
    (hAwait : s.await = .control ctl tx) (h : s.resumeControl ctl tx = some r) :
    Effect env s .resume r.1 r.2 := by
  have hLooping : s.looping = true := by simp [looping, hAwait]
  have hSettled (hDone : s.oneshot ≠ none ∨ s.taskRunning tx = false) : s.Settled := by
    intro tx' hOn
    rw [hAwait] at hOn
    cases hOn
    exact hDone
  have hAnswer (ctl' : ChannelCtl) (response : Response)
      (hDone : s.oneshot ≠ none ∨ s.taskRunning tx = false)
      (hQuiet : (Output.answered ctl' response).quiet = true) :
      Effect env s .resume (s.respond ctl' response).1 (s.respond ctl' response).2 :=
    .turned .resume [.answered ctl' response] (.ok true) hLooping (hSettled hDone)
      (by simpa using hQuiet) (.inl rfl)
  unfold resumeControl at h
  split at h
  · rename_i hReply
    cases h
    exact hAnswer _ _ (.inl (by simp [hReply])) rfl
  · rename_i hReply
    cases h
    exact hAnswer _ _ (.inl (by simp [hReply])) rfl
  · rename_i hReply
    cases h
    exact hAnswer _ _ (.inl (by simp [hReply])) rfl
  · rename_i clientId addr _
    split at h <;> cases h
    rename_i hStopped
    exact .turned .resume [] .err hLooping (hSettled (.inr (by simpa using hStopped))) (by simp)
      (.inr ⟨clientId, addr, tx, hAwait, rfl⟩)
  · split at h <;> cases h
    rename_i hStopped
    exact hAnswer _ _ (.inr (by simpa using hStopped)) rfl
  · split at h <;> cases h
    rename_i hStopped
    exact hAnswer _ _ (.inr (by simpa using hStopped)) rfl
  · cases h

theorem resumePeers_effect {id : Uuid} {conn : Conn} {rest : List (Uuid × Conn)} {peers : List Peer}
    {r : VoiceChannel × List Output} (hAwait : s.await = .peers id conn rest peers)
    (h : s.resumePeers id conn rest peers = some r) : Effect env s .resume r.1 r.2 := by
  have hAsks : s.Asks .resume := .inr ⟨rfl, id, conn, rest, peers, hAwait⟩
  have hNext (peers' : List Peer) (hDone : s.oneshot ≠ none ∨ s.taskRunning conn.ctl.tx = false) :
      Effect env s .resume (s.pollPeers rest peers').1 (s.pollPeers rest peers').2 := by
    refine pollPeers_effect hAsks ?_ rest peers'
    intro tx hOn
    rw [hAwait] at hOn
    cases hOn
    exact hDone
  unfold resumePeers at h
  split at h
  · rename_i hReply
    cases h
    exact hNext _ (.inl (by simp [hReply]))
  · rename_i hReply
    cases h
    exact hNext _ (.inl (by simp [hReply]))
  · split at h <;> cases h
    rename_i hStopped
    exact hNext _ (.inr (by simpa using hStopped))

theorem resumeForward_effect {tx : TaskId} {msg : InternalMsg} {r : VoiceChannel × List Output}
    (hAwait : s.await = .forward tx sender msg) (h : s.resumeForward tx sender msg = some r) :
    Effect env s .resume r.1 r.2 := by
  have hLooping : s.looping = true := by simp [looping, hAwait]
  have hSettled : s.Settled := by
    intro tx' hOn
    rw [hAwait] at hOn
    cases hOn
  have hSend (hRoom : ∀ c, s.spawned[tx]? = some c → c.running = true →
      ¬ msgCapacity ≤ c.msgRx.length) :
      Effect env s .resume (s.sendMsg tx sender msg).1 (s.sendMsg tx sender msg).2 :=
    sendMsg_effect hLooping hSettled (.held tx sender msg hAwait)
      fun c hTask hRunning hFull => absurd hFull (hRoom c hTask hRunning)
  unfold resumeForward at h
  split at h
  · rename_i c hTask
    split at h <;> cases h
    rename_i hRoom
    refine hSend fun c' hTask' hRunning hFull => hRoom ?_
    cases hTask.symm.trans hTask'
    simp [hRunning, hFull]
  · rename_i hTask
    cases h
    refine hSend fun c hSome => ?_
    cases hTask.symm.trans hSome

theorem select_eq_some_iff {handled r : VoiceChannel × List Output} :
    s.select handled = some r ↔ s.await = .event ∧ r = handled := by
  unfold select
  cases s.await <;> simp [eq_comm]

theorem reap_step {index : Nat} (h : step env s (.reap index) = some (s', o)) :
    ∃ task, s.await = .event ∧ s.forwarder.tasks[index]? = some task ∧
      s.taskRunning task.handle = false ∧ s' = (s.reaped index task).turn ∧
      o = [.returned (.ok true)] := by
  simp only [step] at h
  split at h
  · rename_i task hTask
    split at h
    · cases h
    · rename_i hEnded
      obtain ⟨hAwait, hEq⟩ := select_eq_some_iff.mp h
      rw [reapTask_eq] at hEq
      cases hEq
      exact ⟨task, hAwait, hTask, by simpa using hEnded, rfl, rfl⟩
  · cases h

theorem task_step {tx : TaskId} {branch : Branch} (h : step env s (.task tx branch) = some (s', o)) :
    ∃ c outcome, s.spawned[tx]? = some c ∧ PollEffect env c s.now s.voice outcome ∧
      s' = s.polled tx outcome ∧ o = outcome.output.map (.task tx) := by
  simp only [step, pollTask] at h
  split at h
  · cases h
  · rename_i c hTask
    obtain ⟨outcome, hPoll, hEq⟩ := Option.map_eq_some_iff.mp h
    cases hEq
    exact ⟨c, outcome, hTask, VoiceConnection.poll_effect hPoll, rfl, rfl⟩

theorem step_effect {e : Event} (h : step env s e = some (s', o)) : Effect env s e s' o := by
  cases e with
  | tick millis =>
    cases h
    exact .ticked millis
  | datagram sender bytes sendOk =>
    obtain ⟨hAwait, hEq⟩ := select_eq_some_iff.mp h
    have hEffect : Effect env s (.datagram sender bytes sendOk) _ _ := recvDatagram_effect hAwait
    rwa [← hEq] at hEffect
  | recvFailed =>
    obtain ⟨hAwait, hEq⟩ := select_eq_some_iff.mp h
    cases hEq
    exact quiet_effect hAwait [] (by simp)
  | control ctl draw =>
    obtain ⟨hAwait, hEq⟩ := select_eq_some_iff.mp h
    have hEffect : Effect env s (.control ctl draw) _ _ := controlMsg_effect hAwait
    rwa [← hEq] at hEffect
  | controlClosed =>
    obtain ⟨hAwait, hEq⟩ := select_eq_some_iff.mp h
    cases hEq
    exact .closed hAwait
  | reap index =>
    obtain ⟨task, hAwait, hTask, hEnded, rfl, rfl⟩ := reap_step h
    exact .reaped index task hAwait hTask hEnded
  | resume =>
    simp only [step, resume] at h
    split at h
    · rename_i hAwait
      exact resumeForward_effect hAwait h
    · rename_i hAwait
      exact resumeControl_effect hAwait h
    · rename_i hAwait
      exact resumePeers_effect hAwait h
    · cases h
  | idleTimeout =>
    simp only [step] at h
    split at h
    · rename_i deadline hIdle
      split at h
      · rename_i hCond
        cases h
        obtain ⟨hLooping, hLe⟩ := Bool.and_eq_true_iff.mp hCond
        exact .idled deadline hLooping hIdle (of_decide_eq_true hLe)
      · cases h
    · cases h
  | notified =>
    simp only [step] at h
    split at h
    · rename_i hAwait
      cases h
      exact .ended hAwait
    · cases h
  | task tx branch =>
    obtain ⟨c, outcome, hTask, hPoll, rfl, rfl⟩ := task_step h
    exact .task tx branch c outcome hTask hPoll

end VoiceChannel

end Voices.VoiceServer
