import Voices.VoiceServer.Tables

/-!
# What a handler waits for and what it answers

A handler of one client's request looks the client up when the forwarder takes the request,
asks the task that it finds there, and answers when the task has replied or is gone.
`Effect` leaves open which request it is; the lemmas here say so.
-/

namespace Voices.VoiceServer

open Semantics Std

/-- The client whose connection a request is for. -/
def ChannelCtl.client : ChannelCtl → Option Uuid
  | .openConnection _ _ => none
  | .establish clientId _ => some clientId
  | .leave clientId => some clientId
  | .peers => none
  | .status clientId => some clientId

namespace VoiceChannel

variable {env : Env} {s s' : VoiceChannel} {e : Event} {o : List Output} {ctl : ChannelCtl}
  {tx : TaskId}

/-- The lookup of a request that asks a running task. -/
structure Finds (s : VoiceChannel) (ctl : ChannelCtl) (tx : TaskId) : Prop where
  running : s.taskRunning tx = true
  record : ∃ id k conn, ctl.client = some id ∧ s.forwarder.clientIdToSrcId[id]? = some k ∧
    s.forwarder.connections[k]? = some conn ∧ conn.ctl.tx = tx

theorem Finds.of_request {id : Uuid} {k : UInt32} {conn : Conn} {req : ControlRequest}
    {s₁ asked : VoiceChannel} (ctl : ChannelCtl) (hCtl : ctl.client = some id)
    (hClient : s.forwarder.clientIdToSrcId[id]? = some k)
    (hConn : s.forwarder.connections[k]? = some conn)
    (hAsked : s₁.request conn.ctl.tx req = some asked) (hTasks : s₁.spawned = s.spawned) :
    s.Finds ctl conn.ctl.tx ∧ asked.oneshot = none := by
  obtain ⟨c, hTask, hRunning, rfl⟩ := request_eq_some_iff.mp hAsked
  have hRuns : s.taskRunning conn.ctl.tx = true :=
    taskRunning_iff.mpr ⟨c, hTasks ▸ hTask, hRunning⟩
  exact ⟨⟨hRuns, id, k, conn, hCtl, hClient, hConn, rfl⟩, rfl⟩

/-- What the forwarder does when it takes a request, or goes on through the zipped tables. -/
inductive Takes (s : VoiceChannel) (ctl : ChannelCtl) : VoiceChannel × List Output → Prop where
  | responded (s₁ : VoiceChannel) (response : Response) : Takes s ctl (s₁.respond ctl response)
  | asked (asked : VoiceChannel) (tx : TaskId) (hFinds : s.Finds ctl tx)
      (hOneshot : asked.oneshot = none) :
      Takes s ctl ({ asked with await := .control ctl tx }, [])
  | polls (asked : VoiceChannel) (id : Uuid) (conn : Conn) (rest : List (Uuid × Conn))
      (peers : List Peer) : Takes s ctl ({ asked with await := .peers id conn rest peers }, [])
  | failed (s₁ : VoiceChannel) : Takes s ctl (s₁.returned .err [])
  | missing : Takes s ctl s.panic

theorem pollPeers_takes (rest : List (Uuid × Conn)) (peers : List Peer) :
    s.Takes .peers (s.pollPeers rest peers) := by
  induction rest with
  | nil => exact .responded s _
  | cons entry rest ih =>
    obtain ⟨id, conn⟩ := entry
    unfold pollPeers
    split
    · exact .polls _ id conn rest peers
    · exact ih

theorem resumePeers_takes {id : Uuid} {conn : Conn} {rest : List (Uuid × Conn)} {peers : List Peer}
    {r : VoiceChannel × List Output} (h : s.resumePeers id conn rest peers = some r) :
    s.Takes .peers r := by
  unfold resumePeers at h
  split at h
  · cases Option.some.inj h
    exact pollPeers_takes _ _
  · cases Option.some.inj h
    exact pollPeers_takes _ _
  · split at h
    · cases h
    · cases Option.some.inj h
      exact pollPeers_takes _ _

theorem controlMsg_takes (draw : Draw) (ctl : ChannelCtl) : s.Takes ctl (s.controlMsg draw ctl) := by
  cases ctl with
  | openConnection clientId userName => exact .responded _ _
  | peers => exact pollPeers_takes _ _
  | establish clientId addr =>
    simp only [controlMsg, establish]
    split
    · exact .responded s _
    · rename_i k hClient
      split
      · exact .missing
      · rename_i conn hConn
        split
        · rename_i asked hAsked
          obtain ⟨hFinds, hOneshot⟩ :=
            Finds.of_request (.establish clientId addr) rfl hClient hConn hAsked rfl
          exact .asked asked _ hFinds hOneshot
        · exact .failed _
  | leave clientId =>
    simp only [controlMsg, leave]
    split
    · exact .responded s _
    · rename_i conn hFound
      obtain ⟨k, hClient, hConn⟩ := Option.bind_eq_some_iff.mp hFound
      split
      · rename_i asked hAsked
        obtain ⟨hFinds, hOneshot⟩ := Finds.of_request (.leave clientId) rfl hClient hConn hAsked rfl
        exact .asked asked _ hFinds hOneshot
      · exact .responded s _
  | status clientId =>
    simp only [controlMsg, status]
    split
    · exact .responded s _
    · rename_i k hClient
      split
      · exact .missing
      · rename_i conn hConn
        split
        · rename_i asked hAsked
          obtain ⟨hFinds, hOneshot⟩ :=
            Finds.of_request (.status clientId) rfl hClient hConn hAsked rfl
          exact .asked asked _ hFinds hOneshot
        · exact .responded s _

theorem Takes.await {ctl' : ChannelCtl} {r : VoiceChannel × List Output} (h : s.Takes ctl' r)
    (hAwait : r.1.await = .control ctl tx) : ctl' = ctl ∧ s.Finds ctl tx ∧ r.1.oneshot = none := by
  cases h with
  | asked asked tx' hFinds hOneshot =>
    cases hAwait
    exact ⟨rfl, hFinds, hOneshot⟩
  | _ => cases hAwait

/-- A handler that waits for a task has been waiting for it, or begins with a lookup. -/
theorem control_await (hStep : step env s e = some (s', o)) (hAwait : s'.await = .control ctl tx) :
    s.await = .control ctl tx ∨
      (s.await = .event ∧ (∃ draw, e = .control ctl draw) ∧ s.Finds ctl tx ∧ s'.oneshot = none) := by
  have hBegins {ctl' : ChannelCtl} {draw : Draw}
      (hStep : step env s (.control ctl' draw) = some (s', o)) :
      s.await = .event ∧ ctl' = ctl ∧ s.Finds ctl tx ∧ s'.oneshot = none := by
    obtain ⟨hEvent, hMsg⟩ := select_eq_some_iff.mp hStep
    have hTakes : s.Takes ctl' (s', o) := hMsg ▸ controlMsg_takes draw ctl'
    exact ⟨hEvent, hTakes.await hAwait⟩
  cases step_effect hStep with
  | ticked | task => exact .inl hAwait
  | bound =>
    obtain ⟨hEvent, rfl, hFinds⟩ := hBegins hStep
    exact .inr ⟨hEvent, ⟨_, rfl⟩, hFinds⟩
  | asked e tx' c req await hAsks =>
    rcases hAsks with ⟨_, ctl', draw, rfl⟩ | ⟨rfl, id, conn, rest, peers, hPeers⟩
    · obtain ⟨hEvent, rfl, hFinds⟩ := hBegins hStep
      exact .inr ⟨hEvent, ⟨_, rfl⟩, hFinds⟩
    · simp only [step, resume, hPeers] at hStep
      -- `Peers` is no request for one client
      obtain ⟨rfl, ⟨_, _, _, _, hCtl, _⟩, _⟩ := (resumePeers_takes hStep).await hAwait
      cases hCtl
  | _ => cases hAwait

/-- What can happen while a handler waits for a task. -/
inductive Pends (env : Env) (s : VoiceChannel) (ctl : ChannelCtl) (tx : TaskId) :
    Event → VoiceChannel → List Output → Prop where
  | ticked (millis : Nat) : Pends env s ctl tx (.tick millis) { s with now := s.now + millis } []
  | polled (i : TaskId) (branch : Branch) (c : VoiceConnection) (outcome : Outcome)
      (hTask : s.spawned[i]? = some c) (hPoll : PollEffect env c s.now s.voice outcome) :
      Pends env s ctl tx (.task i branch) (s.polled i outcome) (outcome.output.map (.task i))
  | resumed (s' : VoiceChannel) (o : List Output) (hResume : s.resumeControl ctl tx = some (s', o)) :
      Pends env s ctl tx .resume s' o
  | idled (deadline : Instant) (hIdle : s.idle = some deadline) :
      Pends env s ctl tx .idleTimeout (s.waiting .leaving) []

theorem pends (hAwait : s.await = .control ctl tx) (hStep : step env s e = some (s', o)) :
    Pends env s ctl tx e s' o := by
  cases e with
  | tick millis =>
    cases hStep
    exact .ticked millis
  | task i branch =>
    obtain ⟨c, outcome, hTask, hPoll, rfl, rfl⟩ := task_step hStep
    exact .polled i branch c outcome hTask hPoll
  | resume =>
    simp only [step, resume, hAwait] at hStep
    exact .resumed s' o hStep
  | idleTimeout =>
    simp only [step] at hStep
    split at hStep
    · rename_i deadline hIdle
      split at hStep <;> cases hStep
      exact .idled deadline hIdle
    · cases hStep
  | reap index =>
    obtain ⟨_, hEvent, _⟩ := reap_step hStep
    cases hAwait.symm.trans hEvent
  | notified =>
    simp only [step, hAwait] at hStep
    cases hStep
  | _ => cases hAwait.symm.trans (select_eq_some_iff.mp hStep).1

theorem resumeControl_await {r : VoiceChannel × List Output} (h : s.resumeControl ctl tx = some r) :
    r.1 = s.turn := by
  unfold resumeControl at h
  split at h
  case h_7 => cases h
  case h_1 | h_2 | h_3 =>
    cases h
    rfl
  all_goals
    split at h <;> cases h
    rfl

variable {response : Response}

/-- The step answers no request. -/
def Unanswered (o : List Output) : Prop := ∀ ctl response, .answered ctl response ∉ o

theorem unanswered_returned (result : EventResult) (output : List Output) (h : Unanswered output) :
    Unanswered (s.returned result output).2 := by
  intro ctl response hMem
  rcases List.mem_append.mp hMem with hOutput | hResult
  · exact h ctl response hOutput
  · cases List.mem_singleton.mp hResult

theorem unanswered_singleton {out : Output} (h : ∀ ctl response, out ≠ .answered ctl response) :
    Unanswered [out] := fun ctl response hMem => h ctl response (List.mem_singleton.mp hMem).symm

theorem unanswered_nil : Unanswered [] := fun _ _ hMem => absurd hMem List.not_mem_nil

theorem unanswered_forwardFailed (error : ForwardError) : Unanswered (s.forwardFailed error).2 :=
  unanswered_returned _ _ (unanswered_singleton fun _ _ h => by cases h)

theorem unanswered_sendMsg (sender : SocketAddr) (msg : InternalMsg) :
    Unanswered (s.sendMsg tx sender msg).2 := by
  unfold sendMsg
  split
  · exact unanswered_forwardFailed _
  · split
    · split
      · exact unanswered_returned _ _ (unanswered_singleton fun _ _ h => by cases h)
      · exact unanswered_nil
    · exact unanswered_forwardFailed _

theorem unanswered_resumeForward {sender : SocketAddr} {msg : InternalMsg}
    {r : VoiceChannel × List Output} (h : s.resumeForward tx sender msg = some r) : Unanswered r.2 := by
  unfold resumeForward at h
  split at h
  · split at h
    · cases h
    · cases h
      exact unanswered_sendMsg sender msg
  · cases h
    exact unanswered_sendMsg sender msg

theorem unanswered_recvDatagram (sender : SocketAddr) (bytes : List UInt8) (sendOk : Bool) :
    Unanswered (s.recvDatagram env sender bytes sendOk).2 := by
  have hForward (sourceId : UInt32) (msg : InternalMsg) :
      Unanswered (s.forward sender sourceId msg).2 := by
    unfold forward
    split
    · exact unanswered_forwardFailed _
    · unfold connForward
      split
      · exact unanswered_forwardFailed _
      · split
        · exact unanswered_sendMsg sender msg
        · exact unanswered_forwardFailed _
  unfold recvDatagram
  split
  · unfold socketMsg
    split
    · unfold ipDisco
      split
      · refine unanswered_returned _ _ ?_
        split
        · exact unanswered_singleton fun _ _ h => by cases h
        · exact unanswered_nil
      · exact unanswered_returned _ _ unanswered_nil
    · exact hForward _ _
    · exact hForward _ _
    · exact unanswered_singleton fun _ _ h => by cases h
  · exact unanswered_returned _ _ unanswered_nil

theorem answered_respond {ctl' : ChannelCtl} {response' : Response}
    (h : .answered ctl response ∈ (s.respond ctl' response').2) :
    ctl' = ctl ∧ response' = response := by
  rcases List.mem_append.mp h with hAnswer | hResult
  · cases List.mem_singleton.mp hAnswer
    exact ⟨rfl, rfl⟩
  · cases List.mem_singleton.mp hResult

theorem Takes.answered {ctl' : ChannelCtl} {r : VoiceChannel × List Output} (h : s.Takes ctl' r)
    (hMem : .answered ctl response ∈ r.2) : ctl' = ctl := by
  cases h with
  | responded s₁ response' => exact (answered_respond hMem).1
  | asked | polls => cases hMem
  | failed | missing => cases List.mem_singleton.mp hMem

/-- What a `Status` is answered, at once or when the task that was asked has replied or ended. -/
inductive Reports (s : VoiceChannel) (clientId : Uuid) : Event → Option ConnectionState → Prop where
  | unknown (draw : Draw) (hAwait : s.await = .event)
      (hClient : s.forwarder.clientIdToSrcId[clientId]? = none) :
      Reports s clientId (.control (.status clientId) draw) none
  | stopped (draw : Draw) (k : UInt32) (conn : Conn) (hAwait : s.await = .event)
      (hClient : s.forwarder.clientIdToSrcId[clientId]? = some k)
      (hConn : s.forwarder.connections[k]? = some conn) (hEnded : s.taskRunning conn.ctl.tx = false) :
      Reports s clientId (.control (.status clientId) draw) (some .stopped)
  | replied (tx : TaskId) (state : ConnectionState) (hAwait : s.await = .control (.status clientId) tx)
      (hReply : s.oneshot = some (.status state)) : Reports s clientId .resume (some state)
  | ended (tx : TaskId) (hAwait : s.await = .control (.status clientId) tx)
      (hEnded : s.taskRunning tx = false) : Reports s clientId .resume (some .stopped)

theorem answered_resumeControl {clientId : Uuid} {state : Option ConnectionState}
    {r : VoiceChannel × List Output} (hAwait : s.await = .control ctl tx)
    (hResume : s.resumeControl ctl tx = some r)
    (hMem : .answered (.status clientId) (.status state) ∈ r.2) :
    s.Reports clientId .resume state ∧ r = s.respond (.status clientId) (.status state) := by
  unfold resumeControl at hResume
  split at hResume
  · cases hResume
    cases (answered_respond hMem).1
  · cases hResume
    cases (answered_respond hMem).1
  · rename_i hReply
    cases hResume
    obtain ⟨hCtl, hResponse⟩ := answered_respond hMem
    cases hCtl
    cases hResponse
    exact ⟨.replied tx _ hAwait hReply, rfl⟩
  · split at hResume <;> cases hResume
    cases List.mem_singleton.mp hMem
  · split at hResume <;> cases hResume
    cases (answered_respond hMem).1
  · split at hResume <;> cases hResume
    rename_i hEnded
    obtain ⟨hCtl, hResponse⟩ := answered_respond hMem
    cases hCtl
    cases hResponse
    exact ⟨.ended tx hAwait (by simpa using hEnded), rfl⟩
  · cases hResume

theorem answered_takeStatus {clientId : Uuid} {state : Option ConnectionState} (draw : Draw)
    (hAwait : s.await = .event)
    (hMem : .answered (.status clientId) (.status state) ∈ (s.status clientId).2) :
    s.Reports clientId (.control (.status clientId) draw) state ∧
      s.status clientId = s.respond (.status clientId) (.status state) := by
  unfold status at hMem ⊢
  split at hMem
  · rename_i hClient
    cases (answered_respond hMem).2
    exact ⟨.unknown draw hAwait hClient, rfl⟩
  · rename_i k hClient
    split at hMem
    · cases List.mem_singleton.mp hMem
    · rename_i conn hConn
      split at hMem
      · cases hMem
      · rename_i hRequest
        cases (answered_respond hMem).2
        exact ⟨.stopped draw k conn hAwait hClient hConn (request_eq_none_iff.mp hRequest), rfl⟩

theorem answered_status {clientId : Uuid} {state : Option ConnectionState}
    (hStep : step env s e = some (s', o))
    (hMem : .answered (.status clientId) (.status state) ∈ o) :
    s.Reports clientId e state ∧ (s', o) = s.respond (.status clientId) (.status state) := by
  have hNever (h : Unanswered o) : s.Reports clientId e state ∧
      (s', o) = s.respond (.status clientId) (.status state) := absurd hMem (h _ _)
  cases e with
  | tick millis =>
    cases hStep
    cases hMem
  | datagram sender bytes sendOk =>
    obtain ⟨_, hEq⟩ := select_eq_some_iff.mp hStep
    have hOutput : o = (s.recvDatagram env sender bytes sendOk).2 := congrArg Prod.snd hEq
    exact hNever (hOutput ▸ unanswered_recvDatagram sender bytes sendOk)
  | recvFailed =>
    obtain ⟨_, hEq⟩ := select_eq_some_iff.mp hStep
    cases hEq
    exact hNever (unanswered_returned (s := s) _ _ unanswered_nil)
  | control ctl draw =>
    obtain ⟨hAwait, hEq⟩ := select_eq_some_iff.mp hStep
    have hOutput : o = (s.controlMsg draw ctl).2 := congrArg Prod.snd hEq
    rw [hOutput] at hMem
    obtain rfl : ctl = .status clientId := (controlMsg_takes draw ctl).answered hMem
    rw [hEq]
    exact answered_takeStatus draw hAwait hMem
  | controlClosed =>
    obtain ⟨_, hEq⟩ := select_eq_some_iff.mp hStep
    cases hEq
    cases List.mem_singleton.mp hMem
  | reap index =>
    obtain ⟨_, _, _, _, _, rfl⟩ := reap_step hStep
    cases List.mem_singleton.mp hMem
  | resume =>
    simp only [step, resume] at hStep
    split at hStep
    · exact hNever (unanswered_resumeForward hStep)
    · rename_i hAwait
      exact answered_resumeControl hAwait hStep hMem
    · cases (resumePeers_takes hStep).answered hMem
    · cases hStep
  | idleTimeout =>
    simp only [step] at hStep
    split at hStep
    · split at hStep
      · cases hStep
        cases hMem
      · cases hStep
    · cases hStep
  | notified =>
    simp only [step] at hStep
    split at hStep
    · cases hStep
      cases List.mem_singleton.mp hMem
    · cases hStep
  | task tx branch =>
    obtain ⟨_, outcome, _, _, _, rfl⟩ := task_step hStep
    obtain ⟨_, _, hOut⟩ := List.mem_map.mp hMem
    cases hOut

end VoiceChannel

end Voices.VoiceServer
