import Voices.VoiceServer.Connection

/-!
# What one step of a voice task can do

`PollEffect` lists the effects of a branch of the two loops together with the
facts under which a branch has this effect. Invariants of the tasks are shown
by cases on it, never by looking into the loops again.
-/

namespace Voices.VoiceServer

open Semantics

namespace VoiceConnection

def state (c : VoiceConnection) : ConnectionState :=
  match c.phase with
  | .waiting _ => .waiting
  | .peered _ => .peered
  | .ended => .stopped

theorem running_eq_false_iff {c : VoiceConnection} : c.running = false ↔ c.phase = .ended := by
  unfold running
  cases c.phase <;> simp

theorem running_iff {c : VoiceConnection} : c.running = true ↔ c.phase ≠ .ended := by
  rw [← Bool.not_eq_false, Ne, running_eq_false_iff]

theorem state_eq_peered_iff {c : VoiceConnection} :
    c.state = .peered ↔ ∃ p, c.phase = .peered p := by
  unfold state
  cases c.phase <;> simp

@[simp] theorem finish_phase (c : VoiceConnection) : c.finish.phase = .ended := rfl
@[simp] theorem finish_running (c : VoiceConnection) : c.finish.running = false := rfl
@[simp] theorem finish_controlChan (c : VoiceConnection) : c.finish.controlChan = [] := rfl
@[simp] theorem finish_msgRx (c : VoiceConnection) : c.finish.msgRx = [] := rfl
@[simp] theorem finish_sourceId (c : VoiceConnection) : c.finish.sourceId = c.sourceId := rfl
@[simp] theorem finish_clientId (c : VoiceConnection) : c.finish.clientId = c.clientId := rfl
@[simp] theorem finish_cryptKey (c : VoiceConnection) : c.finish.cryptKey = c.cryptKey := rfl

/-- The answer to a request that does not change the loop the task is in. -/
def replyTo (c : VoiceConnection) : ControlRequest → Reply
  | .init _ => .init c.initResponse
  | .status => .status c.state
  | .stop => .stop

end VoiceConnection

inductive PollEffect (env : Env) (c : VoiceConnection) (now : Instant)
    (log : List (UInt32 × Voice)) : Outcome → Prop where
  | finished (hRunning : c.running = true) : PollEffect env c now log { task := c.finish }
  | stopped (rest : List ControlRequest) (hRunning : c.running = true)
      (hControl : c.controlChan = .stop :: rest) :
      PollEffect env c now log { task := c.finish, reply := some .stop }
  | accepted (initTimeout : Instant) (addr : SocketAddr) (rest : List ControlRequest)
      (hPhase : c.phase = .waiting initTimeout) (hControl : c.controlChan = .init addr :: rest) :
      PollEffect env c now log {
        task := { c.startPeered addr now log with controlChan := rest }
        reply := some (.init c.initResponse) }
  | answered (request : ControlRequest) (rest : List ControlRequest) (hRunning : c.running = true)
      (hControl : c.controlChan = request :: rest)
      (hStatus : request = .status ∨ (∃ addr p, request = .init addr ∧ c.phase = .peered p)) :
      PollEffect env c now log {
        task := { c with controlChan := rest }, reply := some (c.replyTo request) }
  | spoke (p : Peered) (voice : Voice) (rest : List InternalMsg) (payload : List UInt8)
      (hPhase : c.phase = .peered p) (hQueue : c.msgRx = .voice voice :: rest)
      (hDecrypt : decryptVoice env.aead c.cryptKey voice = some payload) :
      PollEffect env c now log {
        task := { c with
          msgRx := rest
          phase := .peered { p with received := p.received + 1, seq := voice.sequence } }
        voice := some (c.sourceId, { voice with payload }) }
  | ponged (p : Peered) (ping : Ping) (rest : List InternalMsg) (hPhase : c.phase = .peered p)
      (hQueue : c.msgRx = .ping ping :: rest) :
      PollEffect env c now log {
        task := { c with
          msgRx := rest
          phase := .peered { p with pingDeadline := now + VoiceConnection.idleTimeout } }
        output := [.sent p.addr (.pong { seq := ping.seq, sent := p.sent, received := p.received })] }
  | lagged (p : Peered) (next : Nat) (hPhase : c.phase = .peered p)
      (hRecv : Broadcast.recv env.slots log p.voiceRx = .lagged next) :
      PollEffect env c now log { task := { c with phase := .peered { p with voiceRx := next } } }
  | skipped (p : Peered) (voice : Voice) (next : Nat) (hPhase : c.phase = .peered p)
      (hRecv : Broadcast.recv env.slots log p.voiceRx = .item (c.sourceId, voice) next) :
      PollEffect env c now log { task := { c with phase := .peered { p with voiceRx := next } } }
  | relayed (p : Peered) (rxPktId : UInt32) (voice : Voice) (next : Nat) (use : Encryption)
      (hPhase : c.phase = .peered p)
      (hRecv : Broadcast.recv env.slots log p.voiceRx = .item (rxPktId, voice) next)
      (hOther : c.sourceId ≠ rxPktId)
      (hEncrypt : voice.encrypt env.aead c.cryptKey = some use) :
      PollEffect env c now log {
        task := { c with phase := .peered { p with voiceRx := next, sent := p.sent + 1 } }
        output := [.encrypted use, .sent p.addr (.voice { voice with payload := use.cipher })] }
  | unsent (p : Peered) (rxPktId : UInt32) (voice : Voice) (next : Nat) (use : Encryption)
      (hPhase : c.phase = .peered p)
      (hRecv : Broadcast.recv env.slots log p.voiceRx = .item (rxPktId, voice) next)
      (hOther : c.sourceId ≠ rxPktId)
      (hEncrypt : voice.encrypt env.aead c.cryptKey = some use) :
      PollEffect env c now log { task := c.finish, output := [.encrypted use] }

namespace VoiceConnection

variable {env : Env} {c : VoiceConnection} {now : Instant} {senders : Bool}
  {log : List (UInt32 × Voice)} {branch : Branch} {outcome : Outcome}

theorem run_effect {initTimeout : Instant} (hPhase : c.phase = .waiting initTimeout)
    (h : c.run initTimeout now senders log branch = some outcome) :
    PollEffect env c now log outcome := by
  have hRunning : c.running = true := by simp [running_iff, hPhase]
  cases branch with
  | control =>
    simp only [run] at h
    split at h
    · rename_i addr rest hControl
      cases h
      exact .accepted initTimeout addr rest hPhase hControl
    · rename_i rest hControl
      cases h
      exact .stopped rest hRunning hControl
    · rename_i rest hControl
      cases h
      have hState : c.state = .waiting := by simp [state, hPhase]
      have hAnswered : PollEffect env c now log _ :=
        .answered .status rest hRunning hControl (.inl rfl)
      rwa [replyTo, hState] at hAnswered
    · split at h <;> cases h
      exact .finished hRunning
  | deadline =>
    simp only [run] at h
    split at h <;> cases h
    exact .finished hRunning
  | message sendOk => cases h
  | broadcast sendOk => cases h

theorem peered_message_effect {p : Peered} {sendOk : Bool} (hPhase : c.phase = .peered p)
    (h : c.peered env p now senders log (.message sendOk) = some outcome) :
    PollEffect env c now log outcome := by
  have hRunning : c.running = true := by simp [running_iff, hPhase]
  simp only [peered] at h
  split at h
  · rename_i voice rest hQueue
    split at h
    · cases h
      exact .finished hRunning
    · rename_i payload hDecrypt
      cases h
      exact .spoke p voice rest payload hPhase hQueue hDecrypt
  · rename_i ping rest hQueue
    split at h <;> cases h
    · exact .ponged p ping rest hPhase hQueue
    · exact .finished hRunning
  · split at h <;> cases h
    exact .finished hRunning

theorem peered_broadcast_effect {p : Peered} {sendOk : Bool} (hPhase : c.phase = .peered p)
    (h : c.peered env p now senders log (.broadcast sendOk) = some outcome) :
    PollEffect env c now log outcome := by
  have hRunning : c.running = true := by simp [running_iff, hPhase]
  simp only [peered] at h
  split at h
  · cases h
  · rename_i next hRecv
    cases h
    exact .lagged p next hPhase hRecv
  · rename_i rxPktId voice next hRecv
    split at h
    · rename_i hOwn
      cases h
      exact .skipped p voice next hPhase (hOwn ▸ hRecv)
    · rename_i hOther
      split at h
      · cases h
        exact .finished hRunning
      · rename_i use hEncrypt
        split at h <;> cases h
        · exact .relayed p rxPktId voice next use hPhase hRecv hOther hEncrypt
        · exact .unsent p rxPktId voice next use hPhase hRecv hOther hEncrypt

theorem peered_control_effect {p : Peered} (hPhase : c.phase = .peered p)
    (h : c.peered env p now senders log .control = some outcome) :
    PollEffect env c now log outcome := by
  have hRunning : c.running = true := by simp [running_iff, hPhase]
  simp only [peered] at h
  split at h
  · rename_i addr rest hControl
    cases h
    exact .answered (.init addr) rest hRunning hControl (.inr ⟨addr, p, rfl, hPhase⟩)
  · rename_i rest hControl
    cases h
    have hState : c.state = .peered := state_eq_peered_iff.mpr ⟨p, hPhase⟩
    have hAnswered : PollEffect env c now log _ :=
      .answered .status rest hRunning hControl (.inl rfl)
    rwa [replyTo, hState] at hAnswered
  · rename_i rest hControl
    cases h
    exact .stopped rest hRunning hControl
  · split at h <;> cases h
    exact .finished hRunning

theorem poll_effect (h : c.poll env now senders log branch = some outcome) :
    PollEffect env c now log outcome := by
  unfold poll at h
  split at h
  · rename_i initTimeout hPhase
    exact run_effect hPhase h
  · rename_i p hPhase
    cases branch with
    | message sendOk => exact peered_message_effect hPhase h
    | broadcast sendOk => exact peered_broadcast_effect hPhase h
    | control => exact peered_control_effect hPhase h
    | deadline =>
      simp only [peered] at h
      split at h <;> cases h
      exact .finished (by simp [running_iff, hPhase])
  · cases h

end VoiceConnection

namespace PollEffect

variable {env : Env} {c : VoiceConnection} {now : Instant} {log : List (UInt32 × Voice)}
  {outcome : Outcome}

theorem sourceId (h : PollEffect env c now log outcome) : outcome.task.sourceId = c.sourceId := by
  cases h <;> rfl

theorem clientId (h : PollEffect env c now log outcome) : outcome.task.clientId = c.clientId := by
  cases h <;> rfl

theorem cryptKey (h : PollEffect env c now log outcome) : outcome.task.cryptKey = c.cryptKey := by
  cases h <;> rfl

theorem running (h : PollEffect env c now log outcome) : c.running = true := by
  cases h <;> first | assumption | simp [VoiceConnection.running_iff, *]

/-- A reply answers the first request of the queue. -/
theorem reply (h : PollEffect env c now log outcome) {reply : Reply}
    (hReply : outcome.reply = some reply) :
    c.running = true ∧ ∃ request rest, c.controlChan = request :: rest ∧ reply = c.replyTo request := by
  cases h with
  | stopped rest hRunning hControl =>
    cases hReply
    exact ⟨hRunning, .stop, rest, hControl, rfl⟩
  | accepted initTimeout addr rest hPhase hControl =>
    cases hReply
    exact ⟨by simp [VoiceConnection.running_iff, hPhase], .init addr, rest, hControl, rfl⟩
  | answered request rest hRunning hControl =>
    cases hReply
    exact ⟨hRunning, request, rest, hControl, rfl⟩
  | _ => cases hReply

end PollEffect

end Voices.VoiceServer
