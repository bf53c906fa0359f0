import Voices.Gateway.ChannelState

/-!
# The channels of a gateway

`Channels` of `channels/mod.rs`: the map from ids to the channels with sessions
on this gateway, the calls of `get_or_init` and `reassign_voice` that are under
way, and every channel state that `ChannelInit::init` ever made. Calls suspend
at the registry, at the initialization of a state and at the lock of the map.
-/

namespace Voices.Gateway

open Semantics VoiceServer Std

/-- A channel state, by the order in which they were made. -/
abbrev StateId := Nat

/-- A call of `get_or_init` or `reassign_voice`, by the order in which they began. -/
abbrev CallId := Nat

structure Channel (V : Type) where
  roomId : Uuid
  state : StateId
  voice : V
  deriving DecidableEq

/-- Where a call is suspended: at `get_voice_host_for`, at `init`, at the lock for `or_insert`,
at the lock for `entry`, or at `init` with the lock on the vacant entry. -/
inductive Phase (V : Type) where
  | asking
  | initializing (voice : V)
  | inserting (room : Channel V)
  | locking (voice : V)
  | vacant (voice : V)
  | returned
  deriving DecidableEq

structure Call (V : Type) where
  id : Uuid
  reassign : Bool
  phase : Phase V
  deriving DecidableEq

/-- `lock` is the call that holds the lock of the map while a state is made, and `returned`
the channels that calls have returned. -/
structure Channels (V : Type) where
  channelMap : TreeMap Uuid (Channel V)
  lock : Option CallId
  states : List ChannelEvents
  calls : List (Call V)
  returned : List (Channel V)

namespace Channels

variable {V : Type}

/-- `voiceHost` is the answer of the registry: an error, no such channel, or a host. -/
inductive Event (V : Type) where
  | getOrInit (id : Uuid)
  | reassignVoice (id : Uuid)
  | voiceHost (call : CallId) (answer : Option (Option V))
  | init (call : CallId) (ok : Bool)
  | insert (call : CallId)
  | entry (call : CallId)
  | join (channel : Nat) (info : ClientInfo)
  | joined (state : StateId) (handle : HandleId)
  | drop (state : StateId) (handle : HandleId)
  | leave (state : StateId) (handle : HandleId)
  | close (state : StateId) (handle : HandleId)
  deriving DecidableEq

/-- The result of a call is an error, no channel, or a channel. -/
inductive Output (V : Type) where
  | returned (call : CallId) (result : Option (Option (Channel V)))
  | closed (state : StateId) (removed : Option (Channel V))
  | state (state : StateId) (output : ChannelEvents.Output)
  deriving DecidableEq

def new : Channels V :=
  { channelMap := ∅, lock := none, states := [], calls := [], returned := [] }

def setPhase (s : Channels V) (k : CallId) (call : Call V) (phase : Phase V) : Channels V :=
  { s with calls := s.calls.set k { call with phase } }

def answer (s : Channels V) (k : CallId) (call : Call V) (result : Option (Option (Channel V))) :
    Channels V × List (Output V) :=
  ({ s.setPhase k call .returned with returned := s.returned ++ result.join.toList },
    [.returned k result])

def getOrInit (s : Channels V) (id : Uuid) : Channels V × List (Output V) :=
  match s.channelMap[id]? with
  | some room =>
    ({ s with
        calls := s.calls ++ [⟨id, false, .returned⟩]
        returned := s.returned ++ [room] },
      [.returned s.calls.length (some (some room))])
  | none => ({ s with calls := s.calls ++ [⟨id, false, .asking⟩] }, [])

def voiceHost (s : Channels V) (k : CallId) (call : Call V) :
    Option (Option V) → Channels V × List (Output V)
  | none => s.answer k call none
  | some none => s.answer k call (if call.reassign then none else some none)
  | some (some voice) =>
    (s.setPhase k call (if call.reassign then .locking voice else .initializing voice), [])

def make (s : Channels V) (id : Uuid) (voice : V) : Channel V × Channels V :=
  (⟨id, s.states.length, voice⟩, { s with states := s.states ++ [.new id] })

def init (s : Channels V) (k : CallId) (call : Call V) (ok : Bool) :
    Option (Channels V × List (Output V)) :=
  match call.phase with
  | .initializing voice =>
    if ok then
      let (room, s) := s.make call.id voice
      some (s.setPhase k call (.inserting room), [])
    else some (s.answer k call none)
  | .vacant voice =>
    if s.lock = some k then
      let s := { s with lock := none }
      if ok then
        let (room, s) := s.make call.id voice
        some ({ s with channelMap := s.channelMap.insert call.id room }.answer k call (some (some room)))
      else some (s.answer k call none)
    else none
  | _ => none

/-- `entry(id).or_insert(room)`. -/
def insert (s : Channels V) (k : CallId) (call : Call V) (room : Channel V) :
    Channels V × List (Output V) :=
  match s.channelMap[call.id]? with
  | some found => s.answer k call (some (some found))
  | none =>
    { s with channelMap := s.channelMap.insert call.id room }.answer k call (some (some room))

def entry (s : Channels V) (k : CallId) (call : Call V) (voice : V) : Channels V × List (Output V) :=
  match s.channelMap[call.id]? with
  | some chan =>
    let chan := { chan with voice }
    { s with channelMap := s.channelMap.insert call.id chan }.answer k call (some (some chan))
  | none => ({ s.setPhase k call (.vacant voice) with lock := some k }, [])

def state (s : Channels V) (i : StateId) (e : ChannelEvents.Event) :
    Option (Channels V × List (Output V)) :=
  (s.states[i]?.bind fun events => events.step e).map fun next =>
    ({ s with states := s.states.set i next.1 }, next.2.map (.state i))

/-- `ChannelMap::close`, after which the leave that waits for it ends. -/
def close (s : Channels V) (i : StateId) (h : HandleId) : Option (Channels V × List (Output V)) :=
  match s.states[i]? with
  | some events =>
    (s.state i (.closed h)).map fun next =>
      ({ next.1 with channelMap := s.channelMap.erase events.channelId },
        .closed i s.channelMap[events.channelId]? :: next.2)
  | none => none

/-- Reading or writing the map needs its lock. -/
def unlocked {α : Type} (s : Channels V) (next : Option α) : Option α :=
  if s.lock.isNone then next else none

def step (s : Channels V) : Event V → Option (Channels V × List (Output V))
  | .getOrInit id => s.unlocked (some (s.getOrInit id))
  | .reassignVoice id => some ({ s with calls := s.calls ++ [⟨id, true, .asking⟩] }, [])
  | .voiceHost k answer =>
    match s.calls[k]? with
    | some call =>
      match call.phase with
      | .asking => some (s.voiceHost k call answer)
      | _ => none
    | none => none
  | .init k ok => s.calls[k]?.bind fun call => s.init k call ok
  | .insert k =>
    match s.calls[k]? with
    | some call =>
      match call.phase with
      | .inserting room => s.unlocked (some (s.insert k call room))
      | _ => none
    | none => none
  | .entry k =>
    match s.calls[k]? with
    | some call =>
      match call.phase with
      | .locking voice => s.unlocked (some (s.entry k call voice))
      | _ => none
    | none => none
  | .join n info => s.returned[n]?.bind fun channel => s.state channel.state (.join info)
  | .joined i h => s.state i (.joined h)
  | .drop i h => s.state i (.drop h)
  | .leave i h => s.state i (.leave h)
  | .close i h => s.unlocked (s.close i h)

def answered (s : Channels V) (k : CallId) (call : Call V) (found : Option (Channel V)) : Channels V :=
  { s.setPhase k call .returned with returned := s.returned ++ found.toList }

inductive Effect (s : Channels V) : Event V → Channels V → List (Output V) → Prop where
  | found (id : Uuid) (room : Channel V) (hLock : s.lock = none)
      (hRoom : s.channelMap[id]? = some room) :
      Effect s (.getOrInit id)
        { s with
          calls := s.calls ++ [⟨id, false, .returned⟩]
          returned := s.returned ++ [room] }
        [.returned s.calls.length (some (some room))]
  | asked (e : Event V) (id : Uuid) (reassign : Bool) :
      Effect s e { s with calls := s.calls ++ [⟨id, reassign, .asking⟩] } []
  | resumed (e : Event V) (k : CallId) (call : Call V) (phase : Phase V)
      (hCall : s.calls[k]? = some call)
      (hPhase : (∃ voice, phase = .locking voice) ∨ ∃ voice, phase = .initializing voice) :
      Effect s e (s.setPhase k call phase) []
  | failed (e : Event V) (k : CallId) (call : Call V) (result : Option (Option (Channel V)))
      (hCall : s.calls[k]? = some call) (hResult : result.join = none)
      (hPhase : ∀ voice, call.phase ≠ .vacant voice) :
      Effect s e (s.answered k call none) [.returned k result]
  | made (k : CallId) (call : Call V) (voice : V) (hCall : s.calls[k]? = some call)
      (hPhase : call.phase = .initializing voice) :
      Effect s (.init k true)
        ((s.make call.id voice).2.setPhase k call (.inserting (s.make call.id voice).1)) []
  | inserted (k : CallId) (call : Call V) (room : Channel V) (hLock : s.lock = none)
      (hCall : s.calls[k]? = some call) (hPhase : call.phase = .inserting room)
      (hVacant : s.channelMap[call.id]? = none) :
      Effect s (.insert k)
        ({ s with channelMap := s.channelMap.insert call.id room }.answered k call (some room))
        [.returned k (some (some room))]
  | existing (k : CallId) (call : Call V) (found : Channel V) (hLock : s.lock = none)
      (hCall : s.calls[k]? = some call) (hFound : s.channelMap[call.id]? = some found)
      (hPhase : ∀ voice, call.phase ≠ .vacant voice) :
      Effect s (.insert k) (s.answered k call (some found)) [.returned k (some (some found))]
  | revoiced (k : CallId) (call : Call V) (chan : Channel V) (voice : V) (hLock : s.lock = none)
      (hCall : s.calls[k]? = some call) (hPhase : call.phase = .locking voice)
      (hFound : s.channelMap[call.id]? = some chan) :
      Effect s (.entry k)
        ({ s with channelMap := s.channelMap.insert call.id { chan with voice } }.answered k call
          (some { chan with voice }))
        [.returned k (some (some { chan with voice }))]
  | locked (k : CallId) (call : Call V) (voice : V) (hLock : s.lock = none)
      (hCall : s.calls[k]? = some call) (hPhase : call.phase = .locking voice)
      (hVacant : s.channelMap[call.id]? = none) :
      Effect s (.entry k) { s.setPhase k call (.vacant voice) with lock := some k } []
  | created (k : CallId) (call : Call V) (voice : V) (hLock : s.lock = some k)
      (hCall : s.calls[k]? = some call) (hPhase : call.phase = .vacant voice) :
      Effect s (.init k true)
        ({ (s.make call.id voice).2 with
            lock := none
            channelMap := s.channelMap.insert call.id (s.make call.id voice).1 }.answered k call
          (some (s.make call.id voice).1))
        [.returned k (some (some (s.make call.id voice).1))]
  | unlocked (k : CallId) (call : Call V) (voice : V) (hLock : s.lock = some k)
      (hCall : s.calls[k]? = some call) (hPhase : call.phase = .vacant voice) :
      Effect s (.init k false) ({ s with lock := none }.answered k call none) [.returned k none]
  | joined (n : Nat) (info : ClientInfo) (channel : Channel V) (events events' : ChannelEvents)
      (output : List ChannelEvents.Output) (hChannel : s.returned[n]? = some channel)
      (hState : s.states[channel.state]? = some events)
      (hEffect : events.Effect (.join info) events' output) :
      Effect s (.join n info) { s with states := s.states.set channel.state events' }
        (output.map (.state channel.state))
  | stepped (e : Event V) (i : StateId) (h : HandleId) (events events' : ChannelEvents)
      (event : ChannelEvents.Event) (output : List ChannelEvents.Output)
      (hEvent : (e = .joined i h ∧ event = .joined h) ∨ (e = .drop i h ∧ event = .drop h) ∨
        (e = .leave i h ∧ event = .leave h))
      (hState : s.states[i]? = some events) (hEffect : events.Effect event events' output) :
      Effect s e { s with states := s.states.set i events' } (output.map (.state i))
  | closed (i : StateId) (h : HandleId) (events events' : ChannelEvents)
      (output : List ChannelEvents.Output) (hLock : s.lock = none)
      (hState : s.states[i]? = some events) (hEffect : events.Effect (.closed h) events' output) :
      Effect s (.close i h)
        { s with
          states := s.states.set i events'
          channelMap := s.channelMap.erase events.channelId }
        (.closed i s.channelMap[events.channelId]? :: output.map (.state i))

variable {s s' : Channels V} {e : Event V} {o : List (Output V)}

theorem state_eq_some_iff {i : StateId} {event : ChannelEvents.Event} :
    s.state i event = some (s', o) ↔ ∃ events events' output, s.states[i]? = some events ∧
      events.step event = some (events', output) ∧
      s' = { s with states := s.states.set i events' } ∧ o = output.map (.state i) := by
  simp only [state, Option.map_eq_some_iff, Option.bind_eq_some_iff, Prod.exists, Prod.mk.injEq]
  constructor
  · rintro ⟨events', output, ⟨events, hState, hStep⟩, rfl, rfl⟩
    exact ⟨events, events', output, hState, hStep, rfl, rfl⟩
  · rintro ⟨events, events', output, hState, hStep, rfl, rfl⟩
    exact ⟨events', output, ⟨events, hState, hStep⟩, rfl, rfl⟩

theorem unlocked_eq_some_iff {α : Type} {next : Option α} {result : α} :
    s.unlocked next = some result ↔ s.lock = none ∧ next = some result := by
  simp [Channels.unlocked]

theorem voiceHost_effect {k : CallId} {call : Call V} (hCall : s.calls[k]? = some call)
    (hPhase : call.phase = .asking) (answer : Option (Option V)) :
    Effect s e (s.voiceHost k call answer).1 (s.voiceHost k call answer).2 := by
  have hNot : ∀ voice, call.phase ≠ .vacant voice := by simp [hPhase]
  rcases answer with _ | _ | voice
  · exact .failed e k call none hCall rfl hNot
  · cases hReassign : call.reassign with
    | true =>
      simp only [voiceHost, hReassign]
      exact .failed e k call none hCall rfl hNot
    | false =>
      simp only [voiceHost, hReassign]
      exact .failed e k call (some none) hCall rfl hNot
  · refine .resumed e k call (if call.reassign then .locking voice else .initializing voice) hCall ?_
    split
    · exact .inl ⟨voice, rfl⟩
    · exact .inr ⟨voice, rfl⟩

theorem init_effect {k : CallId} {call : Call V} (hCall : s.calls[k]? = some call) {ok : Bool}
    (hInit : s.init k call ok = some (s', o)) : Effect s (.init k ok) s' o := by
  unfold init at hInit
  split at hInit
  · rename_i voice hPhase
    cases ok with
    | true =>
      cases hInit
      exact .made k call voice hCall hPhase
    | false =>
      cases hInit
      exact .failed _ k call none hCall rfl (by simp [hPhase])
  · rename_i voice hPhase
    split at hInit
    · rename_i hLock
      cases ok with
      | true =>
        cases hInit
        exact .created k call voice hLock hCall hPhase
      | false =>
        cases hInit
        exact .unlocked k call voice hLock hCall hPhase
    · cases hInit
  · cases hInit

theorem step_effect (hStep : step s e = some (s', o)) : Effect s e s' o := by
  cases e with
  | getOrInit id =>
    obtain ⟨hLock, hNext⟩ := unlocked_eq_some_iff.mp hStep
    unfold getOrInit at hNext
    split at hNext
    · rename_i room hRoom
      cases hNext
      exact .found id room hLock hRoom
    · cases hNext
      exact .asked _ id false
  | reassignVoice id =>
    cases hStep
    exact .asked _ id true
  | voiceHost k answer =>
    simp only [step] at hStep
    split at hStep
    · rename_i call hCall
      split at hStep
      · rename_i hPhase
        obtain ⟨rfl, rfl⟩ := Prod.ext_iff.mp (Option.some.inj hStep)
        exact voiceHost_effect hCall hPhase answer
      · cases hStep
    · cases hStep
  | init k ok =>
    obtain ⟨call, hCall, hInit⟩ := Option.bind_eq_some_iff.mp hStep
    exact init_effect hCall hInit
  | insert k =>
    simp only [step] at hStep
    split at hStep
    · rename_i call hCall
      split at hStep
      · rename_i room hPhase
        obtain ⟨hLock, hNext⟩ := unlocked_eq_some_iff.mp hStep
        unfold insert at hNext
        split at hNext
        · rename_i found hFound
          cases hNext
          exact .existing k call found hLock hCall hFound (by simp [hPhase])
        · rename_i hVacant
          cases hNext
          exact .inserted k call room hLock hCall hPhase hVacant
      · cases hStep
    · cases hStep
  | entry k =>
    simp only [step] at hStep
    split at hStep
    · rename_i call hCall
      split at hStep
      · rename_i voice hPhase
        obtain ⟨hLock, hNext⟩ := unlocked_eq_some_iff.mp hStep
        unfold entry at hNext
        split at hNext
        · rename_i chan hFound
          cases hNext
          exact .revoiced k call chan voice hLock hCall hPhase hFound
        · rename_i hVacant
          cases hNext
          exact .locked k call voice hLock hCall hPhase hVacant
      · cases hStep
    · cases hStep
  | join n info =>
    obtain ⟨channel, hChannel, hState⟩ := Option.bind_eq_some_iff.mp hStep
    obtain ⟨events, events', output, hEvents, hJoin, rfl, rfl⟩ := state_eq_some_iff.mp hState
    exact .joined n info channel events events' output hChannel hEvents
      (ChannelEvents.step_effect hJoin)
  | joined i h =>
    obtain ⟨events, events', output, hEvents, hJoin, rfl, rfl⟩ := state_eq_some_iff.mp hStep
    exact .stepped _ i h events events' _ output (.inl ⟨rfl, rfl⟩) hEvents
      (ChannelEvents.step_effect hJoin)
  | drop i h =>
    obtain ⟨events, events', output, hEvents, hDrop, rfl, rfl⟩ := state_eq_some_iff.mp hStep
    exact .stepped _ i h events events' _ output (.inr (.inl ⟨rfl, rfl⟩)) hEvents
      (ChannelEvents.step_effect hDrop)
  | leave i h =>
    obtain ⟨events, events', output, hEvents, hLeave, rfl, rfl⟩ := state_eq_some_iff.mp hStep
    exact .stepped _ i h events events' _ output (.inr (.inr ⟨rfl, rfl⟩)) hEvents
      (ChannelEvents.step_effect hLeave)
  | close i h =>
    obtain ⟨hLock, hClose⟩ := unlocked_eq_some_iff.mp hStep
    unfold close at hClose
    split at hClose
    · rename_i events hEvents
      obtain ⟨⟨s₁, o₁⟩, hState, hNext⟩ := Option.map_eq_some_iff.mp hClose
      obtain ⟨_, events', output, hEvents', hClosed, rfl, rfl⟩ := state_eq_some_iff.mp hState
      cases hEvents.symm.trans hEvents'
      cases hNext
      exact .closed i h events events' output hLock hEvents (ChannelEvents.step_effect hClosed)
    · cases hClose

end Channels

end Voices.Gateway
