import Voices.VoiceServer.Tables

/-!
# A session and its voice connections

`session.rs`: one client session of a gateway with the forwarder of the channel
that it joins, leaves and joins again. The drop of a `VoiceHandle` spawns a task
that asks the voice server for a leave and does not hold the session up, so the
forwarder may take that request before or after anything the session asks next.
-/

namespace Voices.Gateway

open Semantics VoiceServer Std

/-- `conn` is the task that the connection was opened with. Only the voice server knows it. -/
structure VoiceHandle where
  clientId : Uuid
  sourceId : UInt32
  conn : TaskId
  deriving DecidableEq

/-- Where `run_session` is suspended: in its `select!`, or inside `initialize_voice_connection`
at `open_connection`, at `await_client_udp`, and at `establish_session` before and after the
forwarder has taken the request. -/
inductive Suspended where
  | select
  | opening
  | awaitingUdp (sourceId : UInt32) (conn : TaskId)
  | establishing (addr : SocketAddr) (sourceId : UInt32) (conn : TaskId)
  | awaitingSession (sourceId : UInt32) (conn : TaskId)
  | ended
  deriving DecidableEq

structure ServerSession where
  clientId : Uuid
  clientName : String
  suspended : Suspended
  voice : Option VoiceHandle

/-- A session, the leave tasks of its dropped handles, and the forwarder of its channel. -/
structure Sessions where
  session : ServerSession
  leaves : List VoiceHandle
  server : VoiceChannel

def isUnspecified : IpAddr → Bool
  | .v4 ip => ip == 0
  | .v6 ip => ip == 0

def isRequestOf (clientId : Uuid) : VoiceServer.Event → Bool
  | .control (.openConnection other _) _ => other == clientId
  | .control (.establish other _) _ => other == clientId
  | .control (.leave other) _ => other == clientId
  | _ => false

namespace Sessions

/-- `join` is the client's request for this channel, `leave` any other client event that stops the
voice connection, `statusEnded` the end of the status task, and `sessionEnded` the end of the session, by
the end of the client's stream or by an error inside `initialize_voice_connection`. -/
inductive Event where
  | join
  | leave
  | statusEnded
  | sessionEnded
  | opened (draw : Draw)
  | clientUdp (addr : SocketAddr)
  | establish (draw : Draw)
  | left (task : Nat) (draw : Draw)
  | server (event : VoiceServer.Event)

/-- `stop_voice`, or the drop of the session's voice handle elsewhere. -/
def stopVoice (s : Sessions) (next : Suspended) : Sessions :=
  { s with
    session := { s.session with voice := none, suspended := next }
    leaves := s.leaves ++ s.session.voice.toList }

def suspend (s : Sessions) (next : Suspended) : Sessions :=
  { s with session := { s.session with suspended := next } }

/-- The answer to `establish_session` reaches the session that waits for it. -/
def receive (session : ServerSession) : Output → ServerSession
  | .answered (.establish clientId _) (.established response) =>
    match session.suspended with
    | .awaitingSession sourceId conn =>
      if clientId = session.clientId then
        match response with
        | some _ =>
          { session with suspended := .select, voice := some { clientId, sourceId, conn } }
        | none => { session with suspended := .ended }
      else session
    | _ => session
  | _ => session

def serve (env : Env) (s : Sessions) (e : VoiceServer.Event) : Option (Sessions × List Output) :=
  (s.server.step env e).map fun next =>
    ({ s with server := next.1, session := next.2.foldl receive s.session }, next.2)

def step (env : Env) (s : Sessions) : Event → Option (Sessions × List Output)
  | .join =>
    match s.session.suspended with
    | .select => some (s.stopVoice .opening, [])
    | _ => none
  | .leave =>
    match s.session.suspended with
    | .select => some (s.stopVoice .select, [])
    | _ => none
  | .statusEnded =>
    match s.session.suspended with
    | .select => some (s.stopVoice .select, [])
    | _ => none
  | .sessionEnded => some (s.stopVoice .ended, [])
  | .opened draw =>
    match s.session.suspended with
    | .opening =>
      (s.suspend (.awaitingUdp draw.sourceId s.server.spawned.length)).serve env
        (.control (.openConnection s.session.clientId s.session.clientName) draw)
    | _ => none
  | .clientUdp addr =>
    match s.session.suspended with
    | .awaitingUdp sourceId conn =>
      some (if isUnspecified addr.ip then s.stopVoice .ended
        else s.suspend (.establishing addr sourceId conn), [])
    | _ => none
  | .establish draw =>
    match s.session.suspended with
    | .establishing addr sourceId conn =>
      (s.suspend (.awaitingSession sourceId conn)).serve env
        (.control (.establish s.session.clientId addr) draw)
    | _ => none
  | .left i draw =>
    match s.leaves[i]? with
    | some handle =>
      { s with leaves := s.leaves.eraseIdx i }.serve env (.control (.leave handle.clientId) draw)
    | none => none
  | .server e => if isRequestOf s.session.clientId e then none else s.serve env e

def new (clientId : Uuid) (clientName : String) (roomId : Uuid) (now : Instant) : Sessions :=
  { session := { clientId, clientName, suspended := .select, voice := none }
    leaves := []
    server := .new roomId now }

variable {env : Env} {s s' : Sessions} {e : Event} {o : List Output}

theorem serve_eq_some_iff {event : VoiceServer.Event} :
    s.serve env event = some (s', o) ↔ ∃ server, s.server.step env event = some (server, o) ∧
      s' = { s with server, session := o.foldl receive s.session } := by
  simp only [serve, Option.map_eq_some_iff, Prod.exists, Prod.mk.injEq]
  constructor
  · rintro ⟨server, o, hStep, rfl, rfl⟩
    exact ⟨server, hStep, rfl⟩
  · rintro ⟨server, hStep, rfl⟩
    exact ⟨server, o, hStep, rfl, rfl⟩

theorem step_server (hStep : step env s e = some (s', o)) :
    s'.server = s.server ∨ ∃ event output, s.server.step env event = some (s'.server, output) := by
  have hServe {s₁ : Sessions} {event : VoiceServer.Event} (h : s₁.serve env event = some (s', o))
      (hSame : s₁.server = s.server) :
      ∃ event output, s.server.step env event = some (s'.server, output) := by
    obtain ⟨server, hServer, rfl⟩ := serve_eq_some_iff.mp h
    exact ⟨event, o, hSame ▸ hServer⟩
  cases e with
  | join | leave | statusEnded =>
    simp only [step] at hStep
    split at hStep <;> cases hStep
    exact .inl rfl
  | sessionEnded =>
    cases hStep
    exact .inl rfl
  | clientUdp addr =>
    simp only [step] at hStep
    split at hStep
    · cases hStep
      split <;> exact .inl rfl
    · cases hStep
  | opened draw =>
    simp only [step] at hStep
    split at hStep
    · exact .inr (hServe hStep rfl)
    · cases hStep
  | establish draw =>
    simp only [step] at hStep
    split at hStep
    · exact .inr (hServe hStep rfl)
    · cases hStep
  | left i draw =>
    simp only [step] at hStep
    split at hStep
    · exact .inr (hServe hStep rfl)
    · cases hStep
  | server event =>
    simp only [step, Option.ite_none_left_eq_some] at hStep
    exact .inr (hServe hStep.2 rfl)

theorem server_wf {clientId roomId : Uuid} {clientName : String} {now : Instant} {es : List Event}
    {tr : List Output} (hRun : Machine.run (step env) (new clientId clientName roomId now) es = some (s, tr)) :
    s.server.Wf := by
  refine Machine.run_invariant (I := fun s => s.server.Wf) (VoiceChannel.new_wf roomId now) ?_ hRun
  rintro s₁ e s₂ o hWf hStep
  rcases step_server hStep with hSame | ⟨event, output, hServer⟩
  · exact hSame ▸ hWf
  · exact hWf.step (VoiceChannel.step_effect hServer)

end Sessions

end Voices.Gateway
