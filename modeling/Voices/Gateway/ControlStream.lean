import Voices.Semantics.Run
import Voices.VoiceServer.Connection
import Voices.WsProto.Messages

/-!
# The websocket task

`ws.rs`: a task forwards the messages of a client to its session and the events
of the session to the client, and answers keepalives itself. Each turn of its
loop takes one branch of a `select!` that is ready. A queue whose sender is gone
is ready for good, and a turn that finds it so does nothing.
-/

namespace Voices.Gateway

open Semantics VoiceServer WsProto

inductive Message where
  | text (text : List UInt8)
  | binary (data : List UInt8)
  | ping (data : List UInt8)
  | pong (data : List UInt8)
  | close (reason : Option (List UInt8))
  deriving DecidableEq

def Message.bytes : Message → List UInt8
  | .text data | .binary data | .ping data | .pong data => data
  | .close none => []
  | .close (some reason) => reason

/-- `serde_json::from_slice`. -/
abbrev Decode := List UInt8 → Option ClientEvent

def Message.isKeepalive (fromSlice : Decode) : Message → Bool
  | .close _ => false
  | message =>
    match fromSlice message.bytes with
    | some (.keepalive _) => true
    | _ => false

inductive PrivControlStreamError where
  | sendTimeout
  | streamClosed
  | axumError
  | deserError (msg : Message)
  | noReceiver
  deriving DecidableEq

/-- What becomes of a frame that is sent within `send_timeout`. -/
inductive Sending where
  | ok
  | error
  | elapsed
  deriving DecidableEq

/-- The task with its two queues. `dropped` says that the session has dropped its `ControlStream`,
which holds the other ends of both. -/
structure ControlStreamPriv where
  back : List WsProto.ServerEvent
  forward : List ClientEvent
  dropped : Bool
  last : Instant
  now : Instant
  result : Option (Except PrivControlStreamError Unit)

namespace ControlStreamPriv

def keepaliveTimeout : Nat := 2500

def capacity : Nat := 10

/-- `queue`, `next` and `drop` are steps of the session, and `ws`, `back` and `deadline` the
branches of the loop. `ws` yields the end of the stream, an error of it, or a message. -/
inductive Event where
  | tick (millis : Nat)
  | queue (event : WsProto.ServerEvent)
  | next
  | drop
  | ws (next : Option (Except Unit Message)) (sending : Sending)
  | back (sending : Sending)
  | deadline
  deriving DecidableEq

def Event.isTurn : Event → Bool
  | .ws _ _ => true
  | .back _ => true
  | .deadline => true
  | _ => false

def new : ControlStreamPriv :=
  { back := [], forward := [], dropped := false, last := 0, now := 0, result := none }

def finish (s : ControlStreamPriv) (result : Except PrivControlStreamError Unit) : ControlStreamPriv :=
  { s with result := some result }

/-- A frame that cannot be sent ends the loop. -/
def sendJson (s next : ControlStreamPriv) (event : WsProto.ServerEvent) :
    Sending → ControlStreamPriv × List WsProto.ServerEvent
  | .ok => (next, [event])
  | .error => (s.finish (.error .axumError), [])
  | .elapsed => (s.finish (.error .sendTimeout), [])

/-- `handle_incoming_message` with what `run` makes of its result. It waits while the queue of the
session is full. -/
def handleIncomingMessage (fromSlice : Decode) (s : ControlStreamPriv) (message : Message)
    (sending : Sending) : Option (ControlStreamPriv × List WsProto.ServerEvent) :=
  match message with
  | .close _ => some (s.finish (.ok ()), [])
  | message =>
    match fromSlice message.bytes with
    | none => some (s.finish (.error (.deserError message)), [])
    | some (.keepalive ka) => some (s.sendJson { s with last := s.now } (.keepalive ka) sending)
    | some event =>
      if s.dropped then some (s.finish (.error .noReceiver), [])
      else if s.forward.length < capacity then
        some ({ s with forward := s.forward ++ [event], last := s.now }, [])
      else none

/-- One branch of the loop; the outputs are the events that the client is sent. -/
def turn (fromSlice : Decode) (s : ControlStreamPriv) :
    Event → Option (ControlStreamPriv × List WsProto.ServerEvent)
  | .ws none _ => some (s.finish (.error .streamClosed), [])
  | .ws (some (.error _)) _ => some (s.finish (.error .axumError), [])
  | .ws (some (.ok message)) sending => s.handleIncomingMessage fromSlice message sending
  | .back sending =>
    match s.back with
    | event :: back => some (s.sendJson { s with back } event sending)
    | [] => if s.dropped then some (s, []) else none
  | .deadline =>
    if s.last + keepaliveTimeout ≤ s.now then some (s.finish (.ok ()), []) else none
  | _ => none

def step (fromSlice : Decode) (s : ControlStreamPriv) :
    Event → Option (ControlStreamPriv × List WsProto.ServerEvent)
  | .tick millis => some ({ s with now := s.now + millis }, [])
  | .queue event =>
    if s.dropped = false ∧ s.result = none ∧ s.back.length < capacity then
      some ({ s with back := s.back ++ [event] }, [])
    else none
  | .next =>
    match s.dropped, s.forward with
    | false, _ :: forward => some ({ s with forward }, [])
    | _, _ => none
  | .drop => if s.dropped then none else some ({ s with dropped := true, forward := [] }, [])
  | e => if s.result.isNone then s.turn fromSlice e else none

/-- The session is gone and all that it queued has been sent, and the task still runs. -/
def Drained (s : ControlStreamPriv) : Prop := s.dropped = true ∧ s.back = [] ∧ s.result = none

instance (s : ControlStreamPriv) : Decidable s.Drained :=
  inferInstanceAs (Decidable (_ ∧ _ ∧ _))

def EndsAtOnce (fromSlice : Decode) (s : ControlStreamPriv) (e : Event) : Prop :=
  s.Drained → e.isTurn = true → ∀ next, step fromSlice s e = some next → next.1.result.isSome = true

/-- On a queue that is closed and empty, the loop neither selects the queue nor
answers a keepalive. -/
def NoSpin (fromSlice : Decode) (s : ControlStreamPriv) : Event → Prop
  | .back _ => ¬ s.Drained
  | .ws (some (.ok message)) .ok =>
    ¬ (s.Drained ∧ message.isKeepalive fromSlice = true)
  | _ => True

instance (fromSlice : Decode) (s : ControlStreamPriv) : (e : Event) → Decidable (NoSpin fromSlice s e)
  | .back _ => inferInstanceAs (Decidable (¬ s.Drained))
  | .ws (some (.ok message)) .ok =>
    inferInstanceAs (Decidable (¬ (s.Drained ∧ message.isKeepalive fromSlice = true)))
  | .ws (some (.ok _)) .error | .ws (some (.ok _)) .elapsed | .ws (some (.error _)) _ | .ws none _
  | .tick _ | .queue _ | .next | .drop | .deadline => .isTrue trivial

variable {fromSlice : Decode} {s : ControlStreamPriv} {e : Event}
  {next : ControlStreamPriv × List WsProto.ServerEvent}

theorem step_of_turn (hTurn : e.isTurn = true) (hRunning : s.result = none) :
    step fromSlice s e = s.turn fromSlice e := by
  cases e <;> simp_all [Event.isTurn, step]

theorem isSome_result_sendJson (s next : ControlStreamPriv) (event : WsProto.ServerEvent) {sending : Sending}
    (hLost : sending ≠ .ok) : (s.sendJson next event sending).1.result.isSome = true := by
  cases sending with
  | ok => exact absurd rfl hLost
  | error => rfl
  | elapsed => rfl

/-- Without a session, a message ends the task unless it is a keepalive that is answered. -/
theorem handleIncomingMessage_of_dropped {message : Message} {sending : Sending}
    (hDropped : s.dropped = true)
    (hEnds : ¬ (message.isKeepalive fromSlice = true ∧ sending = .ok))
    (h : s.handleIncomingMessage fromSlice message sending = some next) :
    next.1.result.isSome = true := by
  cases message with
  | close reason =>
    cases h
    rfl
  | text data | binary data | ping data | pong data =>
    simp only [handleIncomingMessage, Message.isKeepalive, Message.bytes] at h hEnds
    cases hEvent : fromSlice data with
    | none =>
      rw [hEvent] at h
      cases h
      rfl
    | some event =>
      rw [hEvent] at h hEnds
      cases event with
      | keepalive ka =>
        cases h
        exact isSome_result_sendJson _ _ _ fun hOk => hEnds ⟨rfl, hOk⟩
      | init _ | join _ | udpAnnounce _ | leave | disconnect =>
        simp only [hDropped, if_true] at h
        cases h
        rfl

theorem handleIncomingMessage_of_keepalive {message : Message}
    (hKeepalive : message.isKeepalive fromSlice = true) :
    ∃ ka, s.handleIncomingMessage fromSlice message .ok =
      some ({ s with last := s.now }, [.keepalive ka]) := by
  cases message with
  | close reason => cases hKeepalive
  | text data | binary data | ping data | pong data =>
    simp only [handleIncomingMessage, Message.isKeepalive, Message.bytes] at hKeepalive ⊢
    cases hEvent : fromSlice data with
    | none => simp [hEvent] at hKeepalive
    | some event =>
      rw [hEvent] at hKeepalive
      cases event with
      | keepalive ka => exact ⟨ka, rfl⟩
      | init _ | join _ | udpAnnounce _ | leave | disconnect => cases hKeepalive

theorem turn_of_noSpin (hDrained : s.Drained) (hTurn : e.isTurn = true)
    (hNoSpin : NoSpin fromSlice s e) (h : s.turn fromSlice e = some next) :
    next.1.result.isSome = true := by
  cases e with
  | tick _ | queue _ | next | drop => cases hTurn
  | back sending => exact absurd hDrained hNoSpin
  | deadline =>
    rw [turn, Option.ite_none_right_eq_some] at h
    cases h.2
    rfl
  | ws item sending =>
    match item with
    | none | some (.error _) =>
      cases h
      rfl
    | some (.ok message) =>
      refine handleIncomingMessage_of_dropped hDrained.1 ?_ h
      rintro ⟨hKeepalive, rfl⟩
      exact hNoSpin ⟨hDrained, hKeepalive⟩

/-- A turn on the closed and empty queue that goes on changes nothing but the time of the
last keepalive. -/
theorem turn_of_spin (hTurn : e.isTurn = true) (hSpin : ¬ NoSpin fromSlice s e) :
    ∃ out last, s.turn fromSlice e = some ({ s with last }, out) := by
  match e with
  | .tick _ | .queue _ | .next | .drop => cases hTurn
  | .back sending =>
    obtain ⟨hDropped, hBack, _⟩ := not_not.mp hSpin
    have hTurn : s.turn fromSlice (.back sending) = some (s, []) := by simp [turn, hBack, hDropped]
    exact ⟨[], s.last, hTurn⟩
  | .ws (some (.ok message)) .ok =>
    obtain ⟨ka, hHandle⟩ := handleIncomingMessage_of_keepalive (s := s) (not_not.mp hSpin).2
    exact ⟨_, s.now, hHandle⟩
  | .deadline | .ws none _ | .ws (some (.error _)) _ | .ws (some (.ok _)) .error
  | .ws (some (.ok _)) .elapsed => exact absurd trivial hSpin

theorem drained_of_not_noSpin (hSpin : ¬ NoSpin fromSlice s e) : s.Drained := by
  match e with
  | .back sending => exact not_not.mp hSpin
  | .ws (some (.ok message)) .ok => exact (not_not.mp hSpin).1
  | .tick _ | .queue _ | .next | .drop | .deadline | .ws none _ | .ws (some (.error _)) _
  | .ws (some (.ok _)) .error | .ws (some (.ok _)) .elapsed => exact absurd trivial hSpin

theorem isTurn_of_not_noSpin (hSpin : ¬ NoSpin fromSlice s e) : e.isTurn = true := by
  cases e with
  | ws _ _ | back _ | deadline => rfl
  | tick _ | queue _ | next | drop => exact absurd trivial hSpin

theorem endsAtOnce_iff : EndsAtOnce fromSlice s e ↔ NoSpin fromSlice s e := by
  constructor
  · intro hEnds
    by_contra hSpin
    have hDrained : s.Drained := drained_of_not_noSpin hSpin
    have hTurn : e.isTurn = true := isTurn_of_not_noSpin hSpin
    obtain ⟨out, last, hNext⟩ := turn_of_spin hTurn hSpin
    have hResult := hEnds hDrained hTurn _ ((step_of_turn hTurn hDrained.2.2).trans hNext)
    rw [show ({ s with last } : ControlStreamPriv).result = none from hDrained.2.2] at hResult
    cases hResult
  · intro hNoSpin hDrained hTurn next hStep
    rw [step_of_turn hTurn hDrained.2.2] at hStep
    exact turn_of_noSpin hDrained hTurn hNoSpin hStep

/-- The turns that a run takes on the closed and empty queue. -/
def drainedTurns (fromSlice : Decode) (es : List Event) : List Event :=
  Machine.collect (step fromSlice)
    (fun s e => if s.Drained ∧ e.isTurn = true then some e else none) new es

theorem result_step (hStep : step fromSlice s e = some next) (hRunning : next.1.result = none) :
    s.result = none := by
  cases e with
  | tick millis =>
    cases hStep
    exact hRunning
  | queue event =>
    rw [step, Option.ite_none_right_eq_some] at hStep
    exact hStep.1.2.1
  | next =>
    simp only [step] at hStep
    split at hStep <;> cases hStep
    exact hRunning
  | drop =>
    rw [step, Option.ite_none_left_eq_some] at hStep
    cases hStep.2
    exact hRunning
  | ws _ _ | back _ | deadline =>
    rw [step, Option.ite_none_right_eq_some] at hStep
    · exact Option.isNone_iff_eq_none.mp hStep.1
    all_goals simp

theorem drainedTurns_length_le {es : List Event} {tr : List WsProto.ServerEvent}
    (hAlong : Machine.Along (step fromSlice) (NoSpin fromSlice) new es)
    (hRun : Machine.run (step fromSlice) new es = some (s, tr)) :
    (drainedTurns fromSlice es).length ≤ 1 := by
  have hTurns : (s.result = none → drainedTurns fromSlice es = []) ∧
      (drainedTurns fromSlice es).length ≤ 1 := by
    refine Machine.run_history_along
      (P := fun es s _ => (s.result = none → drainedTurns fromSlice es = []) ∧
        (drainedTurns fromSlice es).length ≤ 1) ⟨fun _ => rfl, Nat.zero_le 1⟩ ?_ hAlong hRun
    intro es s tr e s' o hFirst ih hNoSpin hStep
    have hSnoc : drainedTurns fromSlice (es ++ [e]) = drainedTurns fromSlice es ++
        (if s.Drained ∧ e.isTurn = true then some e else none).toList :=
      Machine.collect_snoc hFirst e
    rw [hSnoc]
    by_cases hTurn : s.Drained ∧ e.isTurn = true
    · have hResult := endsAtOnce_iff.mpr hNoSpin hTurn.1 hTurn.2 (s', o) hStep
      rw [if_pos hTurn, ih.1 hTurn.1.2.2]
      exact ⟨fun hRunning => by simp [hRunning] at hResult, le_rfl⟩
    · rw [if_neg hTurn, Option.toList_none, List.append_nil]
      exact ⟨fun hRunning => ih.1 (result_step hStep hRunning), ih.2⟩
  exact hTurns.2

/-- The task ends with the first turn that finds the session gone and all sent, in
every such turn of a run, exactly when none of them selects the closed queue or
answers a keepalive. Then a run takes at most one such turn. -/
theorem ends_with_session_iff (fromSlice : Decode) (es : List Event) :
    (Machine.Along (step fromSlice) (EndsAtOnce fromSlice) new es ↔
      Machine.Along (step fromSlice) (NoSpin fromSlice) new es) ∧
    (Machine.Along (step fromSlice) (NoSpin fromSlice) new es → ∀ s tr,
      Machine.run (step fromSlice) new es = some (s, tr) →
        (drainedTurns fromSlice es).length ≤ 1) :=
  ⟨⟨Machine.Along.mono fun _ _ => endsAtOnce_iff.mp, Machine.Along.mono fun _ _ => endsAtOnce_iff.mpr⟩,
    fun hAlong _ _ hRun => drainedTurns_length_le hAlong hRun⟩

/-- The closed queue can be selected any number of times. -/
theorem drainedTurns_replicate (fromSlice : Decode) (n : Nat) :
    drainedTurns fromSlice (.drop :: List.replicate n (.back .ok)) = List.replicate n (.back .ok) := by
  let s : ControlStreamPriv := { new with dropped := true }
  have hSpin : Machine.collect (step fromSlice)
      (fun s e => if s.Drained ∧ e.isTurn = true then some e else none) s
      (List.replicate n (.back .ok)) = List.replicate n (.back .ok) := by
    induction n with
    | zero => rfl
    | succ n ih =>
      rw [List.replicate_succ]
      exact congrArg (Event.back .ok :: ·) ih
  exact hSpin

theorem not_ends_with_session :
    ¬ ∀ (fromSlice : Decode) (es : List Event),
      Machine.Along (step fromSlice) (EndsAtOnce fromSlice) new es := by
  intro h
  have hAlong := h (fun _ => none) [.drop, .back .ok]
  have hEnds := (hAlong.2 _ rfl).1 (by decide) rfl _ rfl
  exact absurd hEnds (by decide)

end ControlStreamPriv

end Voices.Gateway
