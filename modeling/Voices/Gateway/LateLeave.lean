import Voices.Gateway.Session
import Voices.VoiceServer.Leave

/-!
# A leave that comes late

The connection that a leave stops is that of the dropped handle, or none,
unless the client has opened another one in the meantime.
-/

namespace Voices.Gateway

open Semantics VoiceServer Std

namespace Sessions

/-- What may happen while the forwarder is inside the handler of a leave. The given task takes
no step of its own. -/
def Meanwhile (t : TaskId) : Event → Prop
  | .server (.tick _) => True
  | .server (.task tx branch) => branch = .control ∨ tx ≠ t
  | .server .resume => True
  | .server _ => False
  | .opened _ => False
  | .establish _ => False
  | .left _ _ => False
  | _ => True

/-- The leave of a dropped handle stops no connection but that of the handle: every other one that
was running and recorded is so when the leave has been handled. -/
def Spares (env : Env) (s : Sessions) (i : Nat) (handle : VoiceHandle) : Prop :=
  ∀ (t : TaskId), t ≠ handle.conn → s.server.Alive t →
    ∀ (draw : Draw) (es : List Event) (s' : Sessions) (tr : List Output),
      (∀ e ∈ es, Meanwhile t e) → Machine.run (step env) s (.left i draw :: es) = some (s', tr) →
      s'.server.await = .event → s'.server.Alive t

/-- The connection to which the client's id leads has ended, or is that of the handle. -/
def LeadsToOwn (s : Sessions) (handle : VoiceHandle) : Prop :=
  ∀ conn ∈ s.server.current handle.clientId, s.server.taskRunning conn.tx = true → conn.tx = handle.conn

variable {env : Env} {s s' : Sessions} {e : Event} {o tr : List Output} {t : TaskId}

theorem bystander_meanwhile (h : s.server.Bystander t) (hMeanwhile : Meanwhile t e)
    (hStep : step env s e = some (s', o)) : s'.server.Bystander t := by
  cases e with
  | join | leave | statusEnded =>
    simp only [step] at hStep
    split at hStep <;> cases hStep
    exact h
  | sessionEnded =>
    cases hStep
    exact h
  | clientUdp addr =>
    simp only [step] at hStep
    split at hStep
    · cases hStep
      split <;> exact h
    · cases hStep
  | opened draw | establish draw | left i draw => cases hMeanwhile
  | server event =>
    simp only [step, Option.ite_none_left_eq_some] at hStep
    obtain ⟨server, hServer, rfl⟩ := serve_eq_some_iff.mp hStep.2
    cases event with
    | tick millis => exact h.tick hServer
    | task tx branch => exact h.task hMeanwhile hServer
    | resume => exact h.resume hServer
    | _ => cases hMeanwhile

theorem bystander_run {es : List Event} (h : s.server.Bystander t) (hAll : ∀ e ∈ es, Meanwhile t e)
    (hRun : Machine.run (step env) s es = some (s', tr)) : s'.server.Bystander t := by
  induction es generalizing s tr with
  | nil =>
    cases hRun
    exact h
  | cons e es ih =>
    obtain ⟨s₁, o, tr₁, hStep, hRest, _⟩ := Machine.run_cons_iff.mp hRun
    exact ih (bystander_meanwhile h (hAll e List.mem_cons_self) hStep)
      (fun e hMem => hAll e (List.mem_cons_of_mem _ hMem)) hRest

theorem receive_clientId (session : ServerSession) (output : List Output) :
    (output.foldl receive session).clientId = session.clientId := by
  induction output generalizing session with
  | nil => rfl
  | cons out output ih =>
    rw [List.foldl_cons, ih]
    unfold receive
    split
    · split
      · split
        · split <;> rfl
        · rfl
      · rfl
    · rfl

theorem serve_run {server : VoiceChannel} {es : List VoiceServer.Event}
    (hOther : ∀ e ∈ es, isRequestOf s.session.clientId e = false)
    (hRun : Machine.run (VoiceChannel.step env) s.server es = some (server, tr)) :
    ∃ s', Machine.run (step env) s (es.map .server) = some (s', tr) ∧ s'.server = server := by
  induction es generalizing s tr with
  | nil =>
    cases hRun
    exact ⟨s, rfl, rfl⟩
  | cons e es ih =>
    obtain ⟨server₁, o, tr₁, hStep, hRest, rfl⟩ := Machine.run_cons_iff.mp hRun
    let s₁ : Sessions := { s with server := server₁, session := o.foldl receive s.session }
    have hFirst : step env s (.server e) = some (s₁, o) := by
      simp only [step, hOther e List.mem_cons_self, Bool.false_eq_true, if_false]
      exact serve_eq_some_iff.mpr ⟨server₁, hStep, rfl⟩
    have hOther₁ : ∀ e ∈ es, isRequestOf s₁.session.clientId e = false := by
      intro e hMem
      rw [receive_clientId]
      exact hOther e (List.mem_cons_of_mem _ hMem)
    obtain ⟨s', hRun', hServer⟩ := ih hOther₁ hRest
    exact ⟨s', Machine.run_cons_iff.mpr ⟨s₁, o, tr₁, hFirst, hRun', rfl⟩, hServer⟩

theorem left_eq_some_iff {i : Nat} {handle : VoiceHandle} (hHandle : s.leaves[i]? = some handle)
    {draw : Draw} :
    step env s (.left i draw) = some (s', o) ↔ ∃ server,
      s.server.step env (.control (.leave handle.clientId) draw) = some (server, o) ∧
        s' = { s with
          leaves := s.leaves.eraseIdx i, server, session := o.foldl receive s.session } := by
  simp only [step, hHandle]
  exact serve_eq_some_iff

theorem spares_of_leadsToOwn (hWf : s.server.Wf) {i : Nat} {handle : VoiceHandle}
    (hHandle : s.leaves[i]? = some handle) (hOwn : s.LeadsToOwn handle) : s.Spares env i handle := by
  intro t hNe hAlive draw es s' tr hMeanwhile hRun _
  obtain ⟨s₁, o, tr₁, hLeft, hRest, _⟩ := Machine.run_cons_iff.mp hRun
  obtain ⟨server, hServer, rfl⟩ := (left_eq_some_iff hHandle).mp hLeft
  have hBystander : server.Bystander t := by
    refine hWf.leave_bystander hAlive (fun conn hConn hRunning hEq => hNe ?_) hServer
    exact hEq.symm.trans (hOwn conn hConn hRunning)
  exact (bystander_run hBystander hMeanwhile hRest).alive

theorem leadsToOwn_of_spares (hWf : s.server.Wf) (hAwait : s.server.await = .event) {i : Nat}
    {handle : VoiceHandle} (hHandle : s.leaves[i]? = some handle) (hSpares : s.Spares env i handle) :
    s.LeadsToOwn handle := by
  intro conn hCurrent hRunning
  by_contra hNe
  obtain ⟨k, _, hConn⟩ := Option.bind_eq_some_iff.mp hCurrent
  have hAlive : s.server.Alive conn.tx := ⟨hRunning, k, conn, hConn, rfl⟩
  let draw : Draw := ⟨0, []⟩
  obtain ⟨server₁, server₂, o, tr, hLeave, hStop, hEvent, hEnded, _⟩ :=
    hWf.leave_stops hAwait hCurrent hRunning env draw
  let s₁ : Sessions := { s with
    leaves := s.leaves.eraseIdx i, server := server₁, session := o.foldl receive s.session }
  have hLeft : step env s (.left i draw) = some (s₁, o) :=
    (left_eq_some_iff hHandle).mpr ⟨server₁, hLeave, rfl⟩
  obtain ⟨s₂, hRest, rfl⟩ := serve_run (s := s₁) (by simp [isRequestOf]) hStop
  have hAfter : s₂.server.Alive conn.tx := by
    refine hSpares conn.tx hNe hAlive draw _ s₂ _ ?_
      (Machine.run_cons_iff.mpr ⟨s₁, o, tr, hLeft, hRest, rfl⟩) hEvent
    simp [Meanwhile]
  rw [hAfter.1] at hEnded
  cases hEnded

/-- In every reachable state the leave of a dropped handle spares all other connections exactly
when the client's id leads to the connection of the handle, or to none that is running. -/
theorem spares_iff (env : Env) (clientId : Uuid) (clientName : String) (roomId : Uuid) (now : Instant)
    (es : List Event) (s : Sessions) (tr : List Output)
    (hRun : Machine.run (step env) (new clientId clientName roomId now) es = some (s, tr))
    (i : Nat) (handle : VoiceHandle) (hHandle : s.leaves[i]? = some handle)
    (hAwait : s.server.await = .event) : s.Spares env i handle ↔ s.LeadsToOwn handle :=
  ⟨leadsToOwn_of_spares (server_wf hRun) hAwait hHandle, spares_of_leadsToOwn (server_wf hRun) hHandle⟩

def rejoined : List Event :=
  [.join, .opened ⟨10, []⟩, .clientUdp ⟨.v4 1, 9⟩, .establish ⟨0, []⟩, .server (.task 0 .control),
    .server .resume, .join]

theorem spares_iff_rejoined : ∃ s tr handle,
    Machine.run (step .bare) (new 1 "a" 7 0) rejoined = some (s, tr) ∧ s.leaves[0]? = some handle ∧
      (s.Spares .bare 0 handle ↔ s.LeadsToOwn handle) := by
  have hLast : (Machine.run (step .bare) (new 1 "a" 7 0) rejoined).map (fun last =>
      decide (last.1.leaves[0]? = some ⟨1, 10, 0⟩ ∧ last.1.server.await = .event)) = some true := by
    decide
  obtain ⟨⟨s, tr⟩, hRun, hState⟩ := Option.map_eq_some_iff.mp hLast
  obtain ⟨hHandle, hAwait⟩ := of_decide_eq_true hState
  exact ⟨s, tr, _, hRun, hHandle,
    spares_iff .bare 1 "a" 7 0 rejoined s tr hRun 0 _ hHandle hAwait⟩

/-- The forwarder takes the leave after the session has opened its next connection. -/
theorem not_spares : ¬ ∀ (env : Env) (clientId : Uuid) (clientName : String) (roomId : Uuid)
    (now : Instant) (es : List Event) (s : Sessions) (tr : List Output) (i : Nat)
    (handle : VoiceHandle),
    Machine.run (step env) (new clientId clientName roomId now) es = some (s, tr) →
    s.leaves[i]? = some handle → s.server.await = .event → s.Spares env i handle := by
  intro hAll
  let es : List Event := rejoined ++ [Event.opened ⟨11, []⟩]
  let rest : List Event := [.left 0 ⟨0, []⟩, .server (.task 1 .control), .server .resume]
  have hLast : (Machine.run (step .bare) (new 1 "a" 7 0) es).map (fun last =>
      decide (last.1.leaves[0]? = some ⟨1, 10, 0⟩ ∧ last.1.server.await = .event ∧
        last.1.server.taskRunning 1 = true ∧
        (last.1.server.forwarder.connections[(11 : UInt32)]?.map Conn.tx) = some 1 ∧
        (Machine.run (step .bare) last.1 rest).map (fun after =>
          decide (after.1.server.await = .event ∧ after.1.server.taskRunning 1 = false)) = some true)) =
      some true := by
    decide
  obtain ⟨⟨s, tr⟩, hRun, hState⟩ := Option.map_eq_some_iff.mp hLast
  obtain ⟨hHandle, hAwait, hRunning, hRecord, hRest⟩ := of_decide_eq_true hState
  obtain ⟨conn, hConn, hTx⟩ := Option.map_eq_some_iff.mp hRecord
  obtain ⟨⟨s', tr'⟩, hRun', hAfter⟩ := Option.map_eq_some_iff.mp hRest
  obtain ⟨hAwait', hEnded⟩ := of_decide_eq_true hAfter
  have hSpares := hAll .bare 1 "a" 7 0 es s tr 0 _ hRun hHandle hAwait
  have hAlive := hSpares 1 (by decide) ⟨hRunning, 11, conn, hConn, hTx⟩ ⟨0, []⟩ _ s' tr'
    (by simp [Meanwhile]) hRun' hAwait'
  rw [hAlive.1] at hEnded
  cases hEnded

end Sessions

end Voices.Gateway
