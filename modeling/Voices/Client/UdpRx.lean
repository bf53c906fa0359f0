import Voices.Semantics.Indexed
import Voices.Semantics.Run
import Voices.VoiceServer.Crypto

/-!
# The client's end of the voice socket

`main.rs` discovers the external address with up to five requests, each given 100 ms, and
then lets `udp_rx` receive on the same socket. What the server has sent may arrive at any
time after it was sent, in any order and more than once, so that the answer to an attempt
that timed out may be received by the next one, or by `udp_rx`. Time is in milliseconds.
-/

namespace Voices.Client.Udp

open VoiceServer Semantics Std

structure Config where
  aead : Aead Key Nonce
  key : Key
  userId : List UInt8
  sourceId : UInt32
  parse : String → Option IpAddr

inductive VoiceEvent where
  | alreadyPresent (id : UInt32)
  | joined (id : UInt32)
  | left (id : UInt32)

/-- The queue on which a stream is played, and whether the task that plays it has ended. -/
structure PlayTx where
  queue : List Voice
  closed : Bool

/-- The capacity of the queue of a stream. -/
def playCapacity : Nat := 3

/-- `try_send`: `none` is `TrySendError::Closed`. What finds the queue full is dropped. -/
def PlayTx.send (tx : PlayTx) (voice : Voice) : Option PlayTx :=
  if tx.closed then none
  else if tx.queue.length < playCapacity then some { tx with queue := tx.queue ++ [voice] }
  else some tx

structure ReceiverState where
  current : TreeMap UInt32 PlayTx

namespace ReceiverState

def new : ReceiverState := { current := ∅ }

def register (state : ReceiverState) (id : UInt32) : ReceiverState :=
  { state with current := state.current.insert id { queue := [], closed := false } }

def remove (state : ReceiverState) (id : UInt32) : ReceiverState :=
  { state with current := state.current.erase id }

/-- `none` is the panic on a stream that is closed. -/
def send (state : ReceiverState) (id : UInt32) (voice : Voice) : Option ReceiverState :=
  match state.current[id]? with
  | some sender => (sender.send voice).map fun tx => { state with current := state.current.insert id tx }
  | none => some state

def voiceEvent (state : ReceiverState) : VoiceEvent → ReceiverState
  | .alreadyPresent id => state.register id
  | .joined id => state.register id
  | .left id => state.remove id

/-- The task that plays the stream takes a packet from its queue. -/
def play (state : ReceiverState) (id : UInt32) : ReceiverState :=
  { state with current := state.current.modify id fun tx => { tx with queue := tx.queue.tail } }

def streamEnded (state : ReceiverState) (id : UInt32) : ReceiverState :=
  { state with current := state.current.modify id fun tx => { tx with closed := true } }

end ReceiverState

/-- `idle` is the loop of `async_main_` between two attempts. `ended` is `udp_rx` after its
event queue was closed or after a fatal receive error, `died` after an error that a message
caused. -/
inductive Phase where
  | idle (attempt : Nat)
  | discovering (attempt : Nat) (deadline : Nat)
  | discovered (addr : SocketAddr)
  | receiving (received : UInt64) (state : ReceiverState)
  | failed
  | ended
  | died
  | panicked

/-- No message has ended `udp_rx`. -/
def Phase.alive : Phase → Bool
  | died => false
  | panicked => false
  | _ => true

/-- `network` is everything that the server has sent, `inbox` what has arrived. -/
structure Endpoint where
  now : Nat
  requests : Nat
  pings : List UInt64
  network : List ServerMessage
  inbox : List ServerMessage
  phase : Phase

/-- What the server sends a client: a pong to one of its pings, voice encrypted under its key,
and the address that a discovery request came from. -/
inductive Emission where
  | pong (ping : Nat) (sent received : UInt64)
  | voice (voice : Voice)
  | ipDisco (sender : SocketAddr)

inductive Event where
  | tick (millis : Nat)
  | attempt (sendOk : Bool)
  | timeout
  | run
  | ping (sent : UInt64)
  | emit (emission : Emission)
  | deliver (index : Nat)
  | recv
  | recvFailed (fatal : Bool)
  | voiceEvent (event : Option VoiceEvent)
  | play (id : UInt32)
  | streamEnded (id : UInt32)

namespace Endpoint

def new (now : Nat) : Endpoint :=
  { now, requests := 0, pings := [], network := [], inbox := [], phase := .idle 0 }

def emitted (c : Config) (s : Endpoint) : Emission → Option ServerMessage
  | .pong ping sent received => s.pings[ping]?.map fun seq => .pong { seq, sent, received }
  | .voice voice => (encryptVoice c.aead c.key voice).map fun payload => .voice { voice with payload }
  | .ipDisco sender =>
    if 0 < s.requests then
      some (.ipDisco { ip := sender.ip.toString, port := sender.port.toUInt32 })
    else none

/-- The end of `discover_ip`. -/
def discoverIp (c : Config) (attempt : Nat) (msg : ServerMessage) : Phase :=
  match msg.message with
  | some (.ipDisco disco) =>
    match c.parse disco.ip with
    | some ip => .discovered { ip, port := disco.port.toUInt16 }
    | none => .idle attempt
  | _ => .idle attempt

/-- A message in the loop of `udp_rx`. IP discovery responses run into the `todo!()`. The round trip
of a pong is subtracted in a `debug!`, so only at that level, where `Duration` panics on underflow;
the clock is assumed not to go back, and then it does not. -/
def udpRx (c : Config) (now : Nat) (received : UInt64) (state : ReceiverState) (msg : ServerMessage) :
    Phase :=
  match msg.message with
  | some (.voice voice) =>
    match decryptVoice c.aead c.key voice with
    | some payload =>
      match state.send voice.sourceId { voice with payload } with
      | some state => .receiving (received + 1) state
      | none => .panicked
    | none => .died
  | some (.pong pong) => if pong.seq.toNat ≤ now then .receiving received state else .panicked
  | some (.ipDisco _) => .panicked
  | none => .died

/-- The client sends the messages in the output. -/
def step (c : Config) (s : Endpoint) : Event → Option (Endpoint × List ClientMessage)
  | .tick millis => some ({ s with now := s.now + millis }, [])
  | .attempt sendOk =>
    match s.phase with
    | .idle attempt =>
      if attempt = 5 then some ({ s with phase := .failed }, [])
      else if sendOk then
        some ({ s with requests := s.requests + 1, phase := .discovering (attempt + 1) (s.now + 100) },
          [⟨some (.ipDisco { uuid := c.userId, sourceId := c.sourceId })⟩])
      else some ({ s with phase := .idle (attempt + 1) }, [])
    | _ => none
  | .timeout =>
    match s.phase with
    | .discovering attempt deadline =>
      if deadline ≤ s.now then some ({ s with phase := .idle attempt }, []) else none
    | _ => none
  | .run =>
    match s.phase with
    | .discovered _ => some ({ s with phase := .receiving 0 .new }, [])
    | _ => none
  | .ping sent =>
    match s.phase with
    | .receiving received _ =>
      some ({ s with pings := s.pings ++ [s.now.toUInt64] },
        [⟨some (.ping { seq := s.now.toUInt64, recv := received, sent, sourceId := c.sourceId })⟩])
    | _ => none
  | .emit emission =>
    (s.emitted c emission).map fun msg => ({ s with network := s.network ++ [msg] }, [])
  | .deliver index => s.network[index]?.map fun msg => ({ s with inbox := s.inbox ++ [msg] }, [])
  | .recv =>
    match s.inbox with
    | [] => none
    | msg :: inbox =>
      match s.phase with
      | .discovering attempt _ => some ({ s with inbox, phase := discoverIp c attempt msg }, [])
      | .receiving received state => some ({ s with inbox, phase := udpRx c s.now received state msg }, [])
      | _ => none
  | .recvFailed fatal =>
    match s.phase with
    | .discovering attempt _ => some ({ s with phase := .idle attempt }, [])
    | .receiving _ _ => some (if fatal then { s with phase := .ended } else s, [])
    | _ => none
  | .voiceEvent event =>
    match s.phase, event with
    | .receiving received state, some event =>
      some ({ s with phase := .receiving received (state.voiceEvent event) }, [])
    | .receiving _ _, none => some ({ s with phase := .ended }, [])
    | _, _ => none
  | .play id =>
    match s.phase with
    | .receiving received state => some ({ s with phase := .receiving received (state.play id) }, [])
    | _ => none
  | .streamEnded id =>
    match s.phase with
    | .receiving received state =>
      some ({ s with phase := .receiving received (state.streamEnded id) }, [])
    | _ => none

/-- What `udp_rx` receives is no IP discovery response, and no voice of a source whose stream
is registered and has ended. -/
def expected (s : Endpoint) : Event → Bool
  | .recv =>
    match s.phase, s.inbox with
    | .receiving _ state, msg :: _ =>
      match msg.message with
      | some (.ipDisco _) => false
      | some (.voice voice) => (state.current[voice.sourceId]?).all fun tx => !tx.closed
      | _ => true
    | _, _ => true
  | _ => true

/-- What the server can have sent by now. -/
def Sound (c : Config) (now : Nat) (msg : ServerMessage) : Prop :=
  match msg.message with
  | some (.pong pong) => pong.seq.toNat ≤ now
  | some (.voice voice) => ∃ payload, decryptVoice c.aead c.key voice = some payload
  | some (.ipDisco _) => True
  | none => False

structure Faithful (c : Config) (s : Endpoint) : Prop where
  pings : ∀ seq ∈ s.pings, seq.toNat ≤ s.now
  network : ∀ msg ∈ s.network, Sound c s.now msg
  inbox : ∀ msg ∈ s.inbox, Sound c s.now msg

variable {c : Config} {s s' : Endpoint} {e : Event} {o : List ClientMessage}

theorem Sound.later {now now' : Nat} {msg : ServerMessage} (h : Sound c now msg) (hLe : now ≤ now') :
    Sound c now' msg := by
  unfold Sound at h ⊢
  split <;> simp_all
  omega

theorem Faithful.emits (h : s.Faithful c) (hLawful : c.aead.Lawful) {emission : Emission}
    {msg : ServerMessage} (hMsg : s.emitted c emission = some msg) : Sound c s.now msg := by
  cases emission with
  | pong ping sent received =>
    obtain ⟨seq, hSeq, rfl⟩ := Option.map_eq_some_iff.mp hMsg
    exact h.pings seq (List.mem_of_getElem? hSeq)
  | voice voice =>
    obtain ⟨payload, hPayload, rfl⟩ := Option.map_eq_some_iff.mp hMsg
    exact ⟨voice.payload, decryptVoice_of_encryptVoice hLawful hPayload⟩
  | ipDisco sender =>
    simp only [emitted] at hMsg
    split at hMsg
    · cases hMsg
      trivial
    · cases hMsg

theorem send_isSome (state : ReceiverState) (id : UInt32) (voice : Voice) :
    (state.send id voice).isSome = (state.current[id]?).all fun tx => !tx.closed := by
  unfold ReceiverState.send PlayTx.send
  cases state.current[id]? with
  | none => rfl
  | some tx =>
    cases hClosed : tx.closed with
    | true => simp [hClosed]
    | false =>
      simp only [Option.all_some, hClosed, Option.isSome_map, Bool.false_eq_true, if_false]
      split <;> rfl

/-- Voice makes `udp_rx` panic only when its stream has ended. -/
theorem closed_of_udpRx_panicked {now : Nat} {received : UInt64} {state : ReceiverState} {voice : Voice}
    (hPanicked : udpRx c now received state ⟨some (.voice voice)⟩ = .panicked) :
    ∃ tx, state.current[voice.sourceId]? = some tx ∧ tx.closed = true := by
  simp only [udpRx] at hPanicked
  split at hPanicked
  · rename_i payload hDecrypt
    have hSend := send_isSome state voice.sourceId { voice with payload }
    cases hResult : state.send voice.sourceId { voice with payload } with
    | some next =>
      rw [hResult] at hPanicked
      cases hPanicked
    | none =>
      rw [hResult, Option.isSome_none] at hSend
      cases hTx : state.current[voice.sourceId]? with
      | none =>
        rw [hTx] at hSend
        cases hSend
      | some tx =>
        refine ⟨tx, rfl, ?_⟩
        simpa [hTx] using hSend
  · cases hPanicked

/-- One turn of `udp_rx` with a message of the server. -/
theorem udpRx_alive {received : UInt64} {state : ReceiverState} {msg : ServerMessage}
    {inbox : List ServerMessage} (hSound : Sound c s.now msg)
    (hPhase : s.phase = .receiving received state) (hInbox : s.inbox = msg :: inbox) :
    (udpRx c s.now received state msg).alive = s.expected .recv := by
  obtain ⟨_ | ⟨pong⟩ | ⟨voice⟩ | ⟨disco⟩⟩ := msg
  · cases hSound
  · have hSeq : pong.seq.toNat ≤ s.now := hSound
    simp only [udpRx, expected, hPhase, hInbox, if_pos hSeq]
    rfl
  · obtain ⟨payload, hPayload⟩ := hSound
    have hSend := send_isSome state voice.sourceId { voice with payload }
    simp only [udpRx, expected, hPhase, hInbox, hPayload]
    rw [← hSend]
    cases state.send voice.sourceId { voice with payload } <;> rfl
  · simp only [udpRx, expected, hPhase, hInbox]
    rfl

/-- What a step leaves as it is but the phase. -/
theorem Faithful.of_eq (h : s.Faithful c) (hNow : s'.now = s.now) (hPings : s'.pings = s.pings)
    (hNetwork : s'.network = s.network) (hInbox : ∀ msg ∈ s'.inbox, msg ∈ s.inbox) : s'.Faithful c where
  pings seq hMem := by rw [hNow]; exact h.pings seq (hPings ▸ hMem)
  network msg hMem := by rw [hNow]; exact h.network msg (hNetwork ▸ hMem)
  inbox msg hMem := by rw [hNow]; exact h.inbox msg (hInbox msg hMem)

theorem Faithful.phase (h : s.Faithful c) {phase : Phase} (hPhase : phase.alive = true)
    (hExpected : s.expected e = true) :
    Faithful c { s with phase } ∧ (phase.alive = true ↔ s.expected e = true) :=
  ⟨h.of_eq rfl rfl rfl fun _ hMem => hMem, iff_of_true hPhase hExpected⟩

theorem discoverIp_alive (c : Config) (attempt : Nat) (msg : ServerMessage) :
    (discoverIp c attempt msg).alive = true := by
  unfold discoverIp
  split
  · split <;> rfl
  · rfl

theorem Faithful.recv (h : s.Faithful c) (hStep : Endpoint.step c s .recv = some (s', o)) :
    s'.Faithful c ∧ (s'.phase.alive = true ↔ s.expected .recv = true) := by
  simp only [Endpoint.step] at hStep
  split at hStep
  · cases hStep
  · rename_i msg inbox hInbox
    have hRest : ∀ msg' ∈ inbox, msg' ∈ s.inbox := fun msg' hMem => by
      rw [hInbox]
      exact List.mem_cons_of_mem _ hMem
    split at hStep
    · rename_i attempt deadline hPhase
      cases hStep
      have hExpected : s.expected .recv = true := by simp only [expected, hPhase]
      exact ⟨h.of_eq rfl rfl rfl hRest, iff_of_true (discoverIp_alive c attempt msg) hExpected⟩
    · rename_i received state hPhase
      cases hStep
      have hSound : Sound c s.now msg := h.inbox msg (hInbox ▸ List.mem_cons_self)
      refine ⟨h.of_eq rfl rfl rfl hRest, ?_⟩
      rw [← udpRx_alive hSound hPhase hInbox]
    · cases hStep

theorem Faithful.step (h : s.Faithful c) (hAlive : s.phase.alive = true) (hLawful : c.aead.Lawful)
    (hStep : Endpoint.step c s e = some (s', o)) :
    s'.Faithful c ∧ (s'.phase.alive = true ↔ s.expected e = true) := by
  cases e with
  | tick millis =>
    cases hStep
    have hLe : s.now ≤ s.now + millis := Nat.le_add_right _ _
    refine ⟨⟨fun seq hMem => (h.pings seq hMem).trans hLe, ?_, ?_⟩, iff_of_true hAlive rfl⟩
    · exact fun msg hMem => (h.network msg hMem).later hLe
    · exact fun msg hMem => (h.inbox msg hMem).later hLe
  | attempt sendOk =>
    simp only [Endpoint.step] at hStep
    split at hStep
    · split at hStep
      · cases hStep
        exact h.phase rfl rfl
      · split at hStep
        · cases hStep
          exact ⟨h.of_eq rfl rfl rfl fun _ hMem => hMem, iff_of_true rfl rfl⟩
        · cases hStep
          exact h.phase rfl rfl
    · cases hStep
  | ping sent =>
    simp only [Endpoint.step] at hStep
    split at hStep
    · cases hStep
      refine ⟨⟨fun seq hMem => ?_, h.network, h.inbox⟩, iff_of_true hAlive rfl⟩
      rcases List.mem_append.mp hMem with hOld | hNew
      · exact h.pings seq hOld
      · rw [List.mem_singleton.mp hNew, Nat.toUInt64_eq, UInt64.toNat_ofNat']
        exact Nat.mod_le _ _
    · cases hStep
  | emit emission =>
    obtain ⟨msg, hMsg, hEq⟩ := Option.map_eq_some_iff.mp hStep
    cases hEq
    refine ⟨⟨h.pings, fun msg' hMem => ?_, h.inbox⟩, iff_of_true hAlive rfl⟩
    rcases List.mem_append.mp hMem with hOld | hNew
    · exact h.network msg' hOld
    · rw [List.mem_singleton.mp hNew]
      exact h.emits hLawful hMsg
  | deliver index =>
    obtain ⟨msg, hMsg, hEq⟩ := Option.map_eq_some_iff.mp hStep
    cases hEq
    refine ⟨⟨h.pings, h.network, fun msg' hMem => ?_⟩, iff_of_true hAlive rfl⟩
    rcases List.mem_append.mp hMem with hOld | hNew
    · exact h.inbox msg' hOld
    · rw [List.mem_singleton.mp hNew]
      exact h.network msg (List.mem_of_getElem? hMsg)
  | recv => exact h.recv hStep
  | recvFailed fatal =>
    simp only [Endpoint.step] at hStep
    split at hStep
    · cases hStep
      exact h.phase rfl rfl
    · cases hStep
      split
      · exact h.phase rfl rfl
      · exact ⟨h, iff_of_true hAlive rfl⟩
    · cases hStep
  | timeout =>
    simp only [Endpoint.step] at hStep
    split at hStep
    · split at hStep <;> cases hStep
      exact h.phase rfl rfl
    · cases hStep
  | voiceEvent event =>
    simp only [Endpoint.step] at hStep
    split at hStep <;> cases hStep
    · exact h.phase rfl rfl
    · exact h.phase rfl rfl
  | run | play | streamEnded =>
    simp only [Endpoint.step] at hStep
    split at hStep <;> cases hStep
    exact h.phase rfl rfl

theorem new_faithful (c : Config) (now : Nat) : (new now).Faithful c where
  pings _ hMem := absurd hMem List.not_mem_nil
  network _ hMem := absurd hMem List.not_mem_nil
  inbox _ hMem := absurd hMem List.not_mem_nil

/-- No message ends `udp_rx` exactly if none of those it receives is an IP discovery response, or
voice of a source whose stream is registered and has ended. -/
theorem survives_iff (hLawful : c.aead.Lawful) {now : Nat} {es : List Event}
    {tr : List ClientMessage} (hRun : Machine.run (Endpoint.step c) (new now) es = some (s, tr)) :
    (∀ es₁ es₂ s₁ tr₁, es = es₁ ++ es₂ →
        Machine.run (Endpoint.step c) (new now) es₁ = some (s₁, tr₁) → s₁.phase.alive = true) ↔
      Machine.Along (Endpoint.step c) (fun s e => s.expected e = true) (new now) es :=
  Machine.always_iff_along (new_faithful c now) rfl
    (fun _ _ _ _ hFaithful hAlive hStep => hFaithful.step hAlive hLawful hStep) hRun

/-- A client whose cipher only tags, and that reads one address out of every text. -/
def plain : Config where
  aead := tagged
  key := [1]
  userId := [7]
  sourceId := 10
  parse _ := some (.v4 1)

/-- The first answer is received by the second attempt. -/
def discovery : List Event :=
  [.attempt true, .emit (.ipDisco ⟨.v4 1, 9⟩), .tick 100, .timeout, .attempt true,
    .emit (.ipDisco ⟨.v4 1, 9⟩), .deliver 0, .recv, .run]

/-- Voice and a pong arrive twice and in another order, before the others' stream is registered
and after. -/
def conversing : List Event :=
  discovery ++ [.emit (.voice ⟨5, 0, 11, [1, 2]⟩), .deliver 2, .recv, .voiceEvent (some (.joined 11)),
    .ping 0, .emit (.pong 0 0 1), .tick 3, .deliver 3, .deliver 2, .deliver 3, .recv, .recv, .recv,
    .voiceEvent (some (.left 11))]

theorem survives_iff_conversing : ∃ s tr,
    Machine.run (Endpoint.step plain) (new 0) conversing = some (s, tr) ∧
      ((∀ es₁ es₂ s₁ tr₁, conversing = es₁ ++ es₂ →
          Machine.run (Endpoint.step plain) (new 0) es₁ = some (s₁, tr₁) → s₁.phase.alive = true) ↔
        Machine.Along (Endpoint.step plain) (fun s e => s.expected e = true) (new 0) conversing) ∧
      Machine.Along (Endpoint.step plain) (fun s e => s.expected e = true) (new 0) conversing := by
  obtain ⟨⟨s, tr⟩, hRun⟩ : ∃ last, Machine.run (Endpoint.step plain) (new 0) conversing = some last :=
    Option.isSome_iff_exists.mp (by decide)
  exact ⟨s, tr, hRun, survives_iff tagged_lawful hRun, by decide⟩

theorem not_survives : ¬ ∀ (c : Config) (now : Nat) (es : List Event) (s : Endpoint)
    (tr : List ClientMessage), c.aead.Lawful →
    Machine.run (Endpoint.step c) (new now) es = some (s, tr) → s.phase.alive = true := by
  intro h
  have hLast : (Machine.run (Endpoint.step plain) (new 0) (discovery ++ [Event.deliver 1, Event.recv])).map
      (fun last => last.1.phase.alive) = some false := by decide
  obtain ⟨⟨s, tr⟩, hRun, hDead⟩ := Option.map_eq_some_iff.mp hLast
  have hAlive := h plain 0 _ s tr tagged_lawful hRun
  rw [hAlive] at hDead
  cases hDead

end Endpoint

end Voices.Client.Udp
