import Voices.Client.UdpRx
import Voices.Semantics.BigEndian
import Voices.VoiceServer.RoundTrip

/-!
# A client on its voice socket

`UdpSetup` and the two tasks that it spawns, with the datagrams as they are on the wire: discovery
of the own address, then `udp_rx` and `udp_tx` on one socket, with the counters that they share.
Time is in milliseconds, the same for `SystemTime` and `Instant`.
-/

namespace Voices.Client.Udp

open VoiceServer Semantics

/-- The locals of `udp_tx`. -/
structure UdpTx where
  mute : Bool
  startSeqNum : UInt64
  sequence : UInt64
  streamTime : UInt64
  deadline : Nat

def keepaliveInterval : Nat := 5000

/-- `addr` is the address that the server sees the client's datagrams come from. `received` and
`sent` are the counters between the two tasks; `tx` is `none` before `udp_tx` starts and after it
has ended. -/
structure Caller where
  addr : SocketAddr
  clientId : Uuid
  config : Config
  announced : Bool
  received : UInt64
  sent : UInt64
  phase : Phase
  tx : Option UdpTx

def Phase.isReceiving : Phase → Bool
  | receiving _ _ => true
  | _ => false

/-- The voice of a message, decrypted. -/
def heard? (c : Config) (msg : ServerMessage) : Option Voice :=
  match msg.message with
  | some (.voice voice) => (decryptVoice c.aead c.key voice).map fun payload => { voice with payload }
  | _ => none

namespace Caller

/-- What the loop of `udp_rx` panics on: an answer to a discovery request, which is too late, and voice
of a registered stream that has ended. -/
def Unexpected (c : Caller) (datagram : List UInt8) : Prop :=
  ∃ received state message, c.phase = .receiving received state ∧
    UdpWithBuf.new.recv datagram = .ok message ∧
    ((∃ disco, message.message = some (.ipDisco disco)) ∨
      ∃ voice tx, message.message = some (.voice voice) ∧
        state.current[voice.sourceId]? = some tx ∧ tx.closed = true)

inductive Event where
  | attempt (taken : Bool)
  | timeout
  | recv (datagram : List UInt8)
  | recvFailed (fatal : Bool)
  | announce
  | ready (key : Key) (srcId : UInt32) (micOk mute : Bool) (sequence streamTime : UInt64)
  | voiceEvent (event : Option VoiceEvent)
  | play (id : UInt32)
  | streamEnded (id : UInt32)
  | record (voice : List UInt8) (taken : Bool)
  | micDead
  | keepalive (taken : Bool)

/-- What a client lets the outside see: a datagram that it sends, the voice in it before it was
encrypted, and the voice that `udp_rx` hands to the task that plays it. -/
inductive Output where
  | datagram (bytes : List UInt8)
  | said (voice : Voice)
  | heard (voice : Voice)

/-- `UdpSetup::new`, for the source id that the server announced. -/
def new (aead : Aead Key Nonce) (parse : String → Option IpAddr) (addr : SocketAddr) (clientId : Uuid)
    (sourceId : UInt32) : Caller where
  addr := addr
  clientId := clientId
  config := { aead, key := [], userId := BigEndian.bytes 16 clientId.toNat, sourceId, parse }
  announced := false
  received := 0
  sent := 0
  phase := .idle 0
  tx := none

/-- The loop of `async_main_` around `discover_ip`, up to the point where it waits for the answer. -/
def attempt (now : Nat) (c : Caller) (attempt : Nat) (taken : Bool) : Caller × List Output :=
  if attempt = 5 then ({ c with phase := .failed }, [])
  else
    let req : IpDiscoveryRequest := { uuid := c.config.userId, sourceId := c.config.sourceId }
    match UdpWithBuf.new.send ⟨some (.ipDisco req)⟩ taken with
    | .ok bytes => ({ c with phase := .discovering (attempt + 1) (now + 100) }, [.datagram bytes])
    | .error _ => ({ c with phase := .idle (attempt + 1) }, [])

/-- A datagram in the loop of `udp_rx`; one that is no message ends it. -/
def udpRx (now : Nat) (c : Caller) (received : UInt64) (state : ReceiverState) (datagram : List UInt8) :
    Caller × List Output :=
  match UdpWithBuf.new.recv datagram with
  | .ok msg =>
    match heard? c.config msg with
    | some voice =>
      ({ c with phase := Endpoint.udpRx c.config now received state msg, received := c.received + 1 },
        [.heard voice])
    | none => ({ c with phase := Endpoint.udpRx c.config now received state msg }, [])
  | .error _ => ({ c with phase := .died }, [])

/-- A recorded chunk in the loop of `udp_tx`. -/
def record (c : Caller) (tx : UdpTx) (voice : List UInt8) (taken : Bool) : Caller × List Output :=
  if tx.mute then (c, [])
  else
    let said : Voice :=
      { sequence := tx.sequence, streamTime := tx.streamTime, sourceId := c.config.sourceId, payload := voice }
    match encryptVoice c.config.aead c.config.key said with
    | none => ({ c with tx := none }, [])
    | some payload =>
      match UdpWithBuf.new.send ⟨some (.voice { said with payload })⟩ taken with
      | .ok bytes =>
        ({ c with tx := some { tx with sequence := tx.sequence + 1, streamTime := tx.streamTime + 960 } },
          [.said said, .datagram bytes])
      | .error _ => ({ c with tx := none }, [])

/-- The ping of `udp_tx`. It tells what was sent up to the ping before it. -/
def keepalive (now : Nat) (c : Caller) (tx : UdpTx) (taken : Bool) : Caller × List Output :=
  let ping : Ping :=
    { seq := now.toUInt64, recv := c.received, sent := c.sent, sourceId := c.config.sourceId }
  let swapped : Caller := { c with sent := tx.sequence - tx.startSeqNum }
  match UdpWithBuf.new.send ⟨some (.ping ping)⟩ taken with
  | .ok bytes =>
    ({ swapped with tx := some { tx with deadline := tx.deadline + keepaliveInterval } }, [.datagram bytes])
  | .error _ => ({ swapped with tx := none }, [])

/-- `UdpSetup::run`. When no microphone is found, `udp_rx` runs already. -/
def run (now : Nat) (c : Caller) (key : Key) (srcId : UInt32) (micOk mute : Bool)
    (sequence streamTime : UInt64) : Caller :=
  { c with
    config := { c.config with key, sourceId := srcId }
    phase := .receiving 0 .new
    tx :=
      if micOk then
        some { mute, startSeqNum := sequence, sequence, streamTime, deadline := now + keepaliveInterval }
      else none }

def step (now : Nat) (c : Caller) : Event → Option (Caller × List Output)
  | .attempt taken =>
    match c.phase with
    | .idle attempt => some (c.attempt now attempt taken)
    | _ => none
  | .timeout =>
    match c.phase with
    | .discovering attempt deadline =>
      if deadline ≤ now then some ({ c with phase := .idle attempt }, []) else none
    | _ => none
  | .recv datagram =>
    match c.phase with
    | .discovering attempt _ =>
      match UdpWithBuf.new.recv datagram with
      | .ok msg => some ({ c with phase := Endpoint.discoverIp c.config attempt msg }, [])
      | .error _ => some ({ c with phase := .idle attempt }, [])
    | .receiving received state => some (c.udpRx now received state datagram)
    | _ => none
  | .recvFailed fatal =>
    match c.phase with
    | .discovering attempt _ => some ({ c with phase := .idle attempt }, [])
    | .receiving _ _ => some (if fatal then { c with phase := .ended } else c, [])
    | _ => none
  | .announce =>
    match c.phase with
    | .discovered _ => if c.announced then none else some ({ c with announced := true }, [])
    | _ => none
  | .ready key srcId micOk mute sequence streamTime =>
    match c.phase with
    | .discovered _ =>
      if c.announced then some (c.run now key srcId micOk mute sequence streamTime, []) else none
    | _ => none
  | .voiceEvent event =>
    match c.phase, event with
    | .receiving received state, some event =>
      some ({ c with phase := .receiving received (state.voiceEvent event) }, [])
    | .receiving _ _, none => some ({ c with phase := .ended }, [])
    | _, _ => none
  | .play id =>
    match c.phase with
    | .receiving received state => some ({ c with phase := .receiving received (state.play id) }, [])
    | _ => none
  | .streamEnded id =>
    match c.phase with
    | .receiving received state => some ({ c with phase := .receiving received (state.streamEnded id) }, [])
    | _ => none
  | .record voice taken => c.tx.map fun tx => c.record tx voice taken
  | .micDead => c.tx.map fun _ => ({ c with tx := none }, [])
  | .keepalive taken =>
    match c.tx with
    | some tx => if tx.deadline ≤ now then some (c.keepalive now tx taken) else none
    | none => none

/-- One of the two tasks that `run` spawns is in its loop. -/
def running (c : Caller) : Bool := c.tx.isSome || c.phase.isReceiving

theorem running_iff {c : Caller} : c.running = true ↔ c.tx.isSome = true ∨ c.phase.isReceiving = true :=
  Bool.or_eq_true_iff

/-- The client remains who it is, and does not get further than it is. -/
structure Stays (c c' : Caller) : Prop where
  addr : c'.addr = c.addr
  clientId : c'.clientId = c.clientId
  config : c'.config = c.config
  announced : c'.announced = c.announced
  discovered : ∀ addr, c'.phase = .discovered addr → c.phase = .discovered addr
  running : c'.running = true → c.running = true
  alive : c'.phase.alive = true ∨ c'.phase = c.phase

theorem Stays.refl (c : Caller) : Stays c c := ⟨rfl, rfl, rfl, rfl, fun _ h => h, id, .inr rfl⟩

theorem Stays.of_phase {c : Caller} {phase : Phase} (hDiscovered : ∀ addr, phase ≠ .discovered addr)
    (hReceiving : phase.isReceiving = true → c.phase.isReceiving = true) (hAlive : phase.alive = true) :
    Stays c { c with phase } := by
  refine ⟨rfl, rfl, rfl, rfl, fun addr h => absurd h (hDiscovered addr), ?_, .inl hAlive⟩
  intro hRunning
  rcases running_iff.mp hRunning with hTx | hPhase
  · exact running_iff.mpr (.inl hTx)
  · exact running_iff.mpr (.inr (hReceiving hPhase))

theorem Stays.of_tx {c : Caller} {tx : UdpTx} (hTx : c.tx = some tx) (sent : UInt64) (tx' : Option UdpTx) :
    Stays c { c with sent, tx := tx' } := by
  refine ⟨rfl, rfl, rfl, rfl, fun _ h => h, ?_, .inr rfl⟩
  intro _
  simp [Caller.running, hTx]

/-- A task that an error or a panic has ended was ended before. -/
theorem Stays.of_not_alive {c c' : Caller} (h : Stays c c') {phase : Phase} (hPhase : c'.phase = phase)
    (hEnded : phase.alive = false) : c.phase = phase := by
  rcases h.alive with hAlive | hSame
  · rw [hPhase, hEnded] at hAlive
    cases hAlive
  · exact hSame.symm.trans hPhase

/-- What an event does to a client. -/
inductive Effect (now : Nat) (c : Caller) : Event → Caller → List Output → Prop where
  | stayed (e : Event) (c' : Caller) (hStays : Stays c c') : Effect now c e c' []
  | asked (taken : Bool) (c' : Caller) (bytes : List UInt8) (hStays : Stays c c')
      (hSend : UdpWithBuf.new.send
        ⟨some (.ipDisco { uuid := c.config.userId, sourceId := c.config.sourceId })⟩ taken = .ok bytes) :
      Effect now c (.attempt taken) c' [.datagram bytes]
  | located (datagram : List UInt8) (attempt deadline : Nat) (msg : ServerMessage)
      (hPhase : c.phase = .discovering attempt deadline) (hRecv : UdpWithBuf.new.recv datagram = .ok msg) :
      Effect now c (.recv datagram) { c with phase := Endpoint.discoverIp c.config attempt msg } []
  | received (datagram : List UInt8) (received : UInt64) (state : ReceiverState)
      (hPhase : c.phase = .receiving received state) :
      Effect now c (.recv datagram) (c.udpRx now received state datagram).1
        (c.udpRx now received state datagram).2
  | announced (addr : SocketAddr) (hPhase : c.phase = .discovered addr) (hNew : c.announced = false) :
      Effect now c .announce { c with announced := true } []
  | started (key : Key) (srcId : UInt32) (micOk mute : Bool) (sequence streamTime : UInt64)
      (addr : SocketAddr) (hPhase : c.phase = .discovered addr) (hAnnounced : c.announced = true) :
      Effect now c (.ready key srcId micOk mute sequence streamTime)
        (c.run now key srcId micOk mute sequence streamTime) []
  | spoke (voice : List UInt8) (taken : Bool) (said : Voice) (payload bytes : List UInt8) (c' : Caller)
      (hStays : Stays c c') (hRunning : c.running = true) (hSource : said.sourceId = c.config.sourceId)
      (hEncrypt : encryptVoice c.config.aead c.config.key said = some payload)
      (hSend : UdpWithBuf.new.send ⟨some (.voice { said with payload })⟩ taken = .ok bytes) :
      Effect now c (.record voice taken) c' [.said said, .datagram bytes]
  | pinged (taken : Bool) (ping : Ping) (bytes : List UInt8) (c' : Caller) (hStays : Stays c c')
      (hRunning : c.running = true) (hSeq : ping.seq = now.toUInt64)
      (hSend : UdpWithBuf.new.send ⟨some (.ping ping)⟩ taken = .ok bytes) :
      Effect now c (.keepalive taken) c' [.datagram bytes]

section Received

variable {now : Nat} {c : Caller} {received : UInt64} {state : ReceiverState} {datagram : List UInt8}

theorem udpRx_error {error : UdpError} (hRecv : UdpWithBuf.new.recv datagram = .error error) :
    c.udpRx now received state datagram = ({ c with phase := .died }, []) := by
  rw [udpRx, hRecv]

theorem udpRx_heard {msg : ServerMessage} {voice : Voice} (hRecv : UdpWithBuf.new.recv datagram = .ok msg)
    (hHeard : heard? c.config msg = some voice) :
    c.udpRx now received state datagram =
      ({ c with phase := Endpoint.udpRx c.config now received state msg, received := c.received + 1 },
        [.heard voice]) := by
  simp only [udpRx, hRecv, hHeard]

theorem udpRx_silent {msg : ServerMessage} (hRecv : UdpWithBuf.new.recv datagram = .ok msg)
    (hHeard : heard? c.config msg = none) :
    c.udpRx now received state datagram =
      ({ c with phase := Endpoint.udpRx c.config now received state msg }, []) := by
  simp only [udpRx, hRecv, hHeard]

/-- Only the phase and the counter of what was received change. -/
theorem udpRx_eq (now : Nat) (c : Caller) (received : UInt64) (state : ReceiverState)
    (datagram : List UInt8) :
    ∃ phase counted, (c.udpRx now received state datagram).1 = { c with phase, received := counted } := by
  cases hRecv : UdpWithBuf.new.recv datagram with
  | error error =>
    rw [udpRx_error hRecv]
    exact ⟨.died, c.received, rfl⟩
  | ok msg =>
    cases hHeard : heard? c.config msg with
    | none =>
      rw [udpRx_silent hRecv hHeard]
      exact ⟨_, c.received, rfl⟩
    | some voice =>
      rw [udpRx_heard hRecv hHeard]
      exact ⟨_, _, rfl⟩

theorem udpRx_output {out : Output} (hMem : out ∈ (c.udpRx now received state datagram).2) :
    ∃ voice, out = .heard voice := by
  cases hRecv : UdpWithBuf.new.recv datagram with
  | error error =>
    rw [udpRx_error hRecv] at hMem
    cases hMem
  | ok msg =>
    cases hHeard : heard? c.config msg with
    | none =>
      rw [udpRx_silent hRecv hHeard] at hMem
      cases hMem
    | some voice =>
      rw [udpRx_heard hRecv hHeard] at hMem
      exact ⟨voice, List.mem_singleton.mp hMem⟩

/-- A panic is due to a message that is unexpected, or to a clock that has gone back. -/
theorem udpRx_panicked (hPhase : c.phase = .receiving received state)
    (hPanicked : (c.udpRx now received state datagram).1.phase = .panicked) :
    c.Unexpected datagram ∨ ∃ message pong, UdpWithBuf.new.recv datagram = .ok message ∧
      message.message = some (.pong pong) ∧ now < pong.seq.toNat := by
  cases hRecv : UdpWithBuf.new.recv datagram with
  | error error =>
    rw [udpRx_error hRecv] at hPanicked
    cases hPanicked
  | ok msg =>
    have hMessage : Endpoint.udpRx c.config now received state msg = .panicked := by
      cases hHeard : heard? c.config msg with
      | none => rwa [udpRx_silent hRecv hHeard] at hPanicked
      | some voice => rwa [udpRx_heard hRecv hHeard] at hPanicked
    obtain ⟨_ | pong | voice | disco⟩ := msg
    · cases hMessage
    · refine .inr ⟨_, pong, rfl, rfl, Nat.lt_of_not_le fun hLe => ?_⟩
      simp [Endpoint.udpRx, hLe] at hMessage
    · obtain ⟨tx, hTx, hClosed⟩ := Endpoint.closed_of_udpRx_panicked hMessage
      exact .inl ⟨received, state, _, hPhase, hRecv, .inr ⟨voice, tx, rfl, hTx, hClosed⟩⟩
    · exact .inl ⟨received, state, _, hPhase, hRecv, .inl ⟨disco, rfl⟩⟩

end Received

section Steps

variable {now : Nat} {c : Caller} {r : Caller × List Output}

theorem effect_attempt {attempt : Nat} (taken : Bool) :
    Effect now c (.attempt taken) (c.attempt now attempt taken).1 (c.attempt now attempt taken).2 := by
  unfold Caller.attempt
  split
  · exact .stayed _ _ (.of_phase (by simp) (by simp [Phase.isReceiving]) rfl)
  · dsimp only
    split
    · rename_i bytes hSend
      exact .asked taken _ bytes (.of_phase (by simp) (by simp [Phase.isReceiving]) rfl) hSend
    · exact .stayed _ _ (.of_phase (by simp) (by simp [Phase.isReceiving]) rfl)

theorem effect_record {tx : UdpTx} (hTx : c.tx = some tx) (voice : List UInt8) (taken : Bool) :
    Effect now c (.record voice taken) (c.record tx voice taken).1 (c.record tx voice taken).2 := by
  unfold Caller.record
  split
  · exact .stayed _ _ (.refl c)
  · dsimp only
    split
    · exact .stayed _ _ (.of_tx hTx c.sent none)
    · rename_i payload hEncrypt
      split
      · rename_i bytes hSend
        exact .spoke voice taken _ payload bytes _ (.of_tx hTx c.sent _) (by simp [running, hTx]) rfl
          hEncrypt hSend
      · exact .stayed _ _ (.of_tx hTx c.sent none)

theorem effect_keepalive {tx : UdpTx} (hTx : c.tx = some tx) (taken : Bool) :
    Effect now c (.keepalive taken) (c.keepalive now tx taken).1 (c.keepalive now tx taken).2 := by
  unfold Caller.keepalive
  dsimp only
  split
  · rename_i bytes hSend
    exact .pinged taken _ bytes _ (.of_tx hTx _ _) (by simp [running, hTx]) rfl hSend
  · exact .stayed _ _ (.of_tx hTx _ none)

/-- What changes only the streams that are played. -/
theorem effect_receiving {received : UInt64} {state : ReceiverState} (e : Event)
    (hPhase : c.phase = .receiving received state) (state' : ReceiverState) :
    Effect now c e { c with phase := .receiving received state' } [] :=
  .stayed e _ (.of_phase (by simp) (fun _ => by simp [hPhase, Phase.isReceiving]) rfl)

theorem effect_ended (e : Event) : Effect now c e { c with phase := .ended } [] :=
  .stayed e _ (.of_phase (by simp) (by simp [Phase.isReceiving]) rfl)

theorem effect_idle (e : Event) (attempt : Nat) : Effect now c e { c with phase := .idle attempt } [] :=
  .stayed e _ (.of_phase (by simp) (by simp [Phase.isReceiving]) rfl)

theorem step_effect {e : Event} (hStep : c.step now e = some r) : Effect now c e r.1 r.2 := by
  cases e with
  | attempt taken =>
    simp only [step] at hStep
    split at hStep
    · cases Option.some.inj hStep
      exact effect_attempt taken
    · cases hStep
  | timeout =>
    simp only [step] at hStep
    split at hStep
    · split at hStep
      · cases Option.some.inj hStep
        exact effect_idle _ _
      · cases hStep
    · cases hStep
  | recv datagram =>
    simp only [step] at hStep
    split at hStep
    · rename_i attempt deadline hPhase
      split at hStep
      · rename_i msg hRecv
        cases Option.some.inj hStep
        exact .located datagram attempt deadline msg hPhase hRecv
      · cases Option.some.inj hStep
        exact effect_idle _ _
    · rename_i received state hPhase
      cases Option.some.inj hStep
      exact .received datagram received state hPhase
    · cases hStep
  | recvFailed fatal =>
    simp only [step] at hStep
    split at hStep
    · cases Option.some.inj hStep
      exact effect_idle _ _
    · cases fatal with
      | true =>
        cases Option.some.inj hStep
        exact effect_ended _
      | false =>
        cases Option.some.inj hStep
        exact .stayed _ _ (.refl c)
    · cases hStep
  | announce =>
    simp only [step] at hStep
    split at hStep
    · rename_i addr hPhase
      split at hStep
      · cases hStep
      · rename_i hNew
        cases Option.some.inj hStep
        exact .announced addr hPhase (Bool.eq_false_of_not_eq_true hNew)
    · cases hStep
  | ready key srcId micOk mute sequence streamTime =>
    simp only [step] at hStep
    split at hStep
    · rename_i addr hPhase
      split at hStep
      · rename_i hAnnounced
        cases Option.some.inj hStep
        exact .started key srcId micOk mute sequence streamTime addr hPhase hAnnounced
      · cases hStep
    · cases hStep
  | voiceEvent event =>
    simp only [step] at hStep
    split at hStep
    · rename_i hPhase
      cases Option.some.inj hStep
      exact effect_receiving _ hPhase _
    · cases Option.some.inj hStep
      exact effect_ended _
    · cases hStep
  | play id =>
    simp only [step] at hStep
    split at hStep
    · rename_i hPhase
      cases Option.some.inj hStep
      exact effect_receiving _ hPhase _
    · cases hStep
  | streamEnded id =>
    simp only [step] at hStep
    split at hStep
    · rename_i hPhase
      cases Option.some.inj hStep
      exact effect_receiving _ hPhase _
    · cases hStep
  | record voice taken =>
    obtain ⟨tx, hTx, rfl⟩ := Option.map_eq_some_iff.mp hStep
    exact effect_record hTx voice taken
  | micDead =>
    obtain ⟨tx, hTx, rfl⟩ := Option.map_eq_some_iff.mp hStep
    exact .stayed _ _ (.of_tx hTx c.sent none)
  | keepalive taken =>
    simp only [step] at hStep
    split at hStep
    · rename_i tx hTx
      split at hStep
      · cases Option.some.inj hStep
        exact effect_keepalive hTx taken
      · cases hStep
    · cases hStep

theorem announce_eq (hStep : c.step now .announce = some r) :
    c.announced = false ∧ r = ({ c with announced := true }, []) := by
  simp only [step] at hStep
  split at hStep
  · split at hStep
    · cases hStep
    · rename_i hNew
      exact ⟨Bool.eq_false_of_not_eq_true hNew, (Option.some.inj hStep).symm⟩
  · cases hStep

end Steps

end Caller

end Voices.Client.Udp
