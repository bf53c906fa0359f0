import Voices.VoiceServer.Destination

/-!
# The bound address and the peered address

`Conn::bind` stores the address of every `Establish`, while the task takes the
address of the first one only and answers a later `Init` without reading it.
The two copies agree as long as no `Establish` gives a peered connection
another address.
-/

namespace Voices.VoiceServer

open Semantics Std

/-- The record and the task of one connection agree, also on the address still under way. -/
structure Agrees (conn : Conn) (c : VoiceConnection) : Prop where
  peered : ∀ p, c.phase = .peered p → conn.addr = some p.addr
  pending : ∀ initTimeout addr, c.phase = .waiting initTimeout → .init addr ∈ c.controlChan →
    conn.addr = some addr

theorem Agrees.ended (conn : Conn) {c : VoiceConnection} (hPhase : c.phase = .ended) :
    Agrees conn c := by
  constructor <;> simp [hPhase]

theorem Agrees.poll {env : Env} {conn : Conn} {c : VoiceConnection} {now : Instant}
    {log : List (UInt32 × Voice)} {outcome : Outcome} (hAgrees : Agrees conn c)
    (hPoll : PollEffect env c now log outcome) : Agrees conn outcome.task := by
  have hSame (p p' : Peered) (c' : VoiceConnection) (hPhase : c.phase = .peered p)
      (hPhase' : c'.phase = .peered p') (hAddr : p'.addr = p.addr) : Agrees conn c' := by
    constructor
    · intro q hq
      cases hPhase'.symm.trans hq
      rw [hAddr]
      exact hAgrees.peered p hPhase
    · simp [hPhase']
  cases hPoll with
  | finished | stopped | unsent => exact .ended conn rfl
  | accepted initTimeout addr rest hPhase hControl =>
    constructor
    · intro p hp
      cases hp
      exact hAgrees.pending initTimeout addr hPhase (by simp [hControl])
    · intro _ _ hWaiting
      cases hWaiting
  | answered request rest hRunning hControl =>
    refine ⟨hAgrees.peered, fun initTimeout addr hPhase hMem => ?_⟩
    exact hAgrees.pending initTimeout addr hPhase (hControl ▸ List.mem_cons_of_mem _ hMem)
  | spoke p voice rest payload hPhase => exact hSame p _ _ hPhase rfl rfl
  | ponged p ping rest hPhase => exact hSame p _ _ hPhase rfl rfl
  | lagged p next hPhase => exact hSame p _ _ hPhase rfl rfl
  | skipped p voice next hPhase => exact hSame p _ _ hPhase rfl rfl
  | relayed p rxPktId voice next use hPhase => exact hSame p _ _ hPhase rfl rfl

theorem Agrees.queued {conn : Conn} {c : VoiceConnection} (hAgrees : Agrees conn c)
    (msgs : List InternalMsg) (requests : List ControlRequest)
    (hRequests : ∀ addr, .init addr ∈ requests → conn.addr = some addr) :
    Agrees conn { c with msgRx := c.msgRx ++ msgs, controlChan := c.controlChan ++ requests } := by
  refine ⟨hAgrees.peered, fun initTimeout addr hPhase hMem => ?_⟩
  rcases List.mem_append.mp hMem with hOld | hNew
  · exact hAgrees.pending initTimeout addr hPhase hOld
  · exact hRequests addr hNew

namespace VoiceChannel

/-- Every peered connection accepts datagrams from the address that its task sends to. -/
def AddrsAgree (s : VoiceChannel) : Prop :=
  ∀ (k : UInt32) (conn : Conn) (c : VoiceConnection) (p : Peered),
    s.forwarder.connections[k]? = some conn → s.spawned[conn.tx]? = some c → c.phase = .peered p →
    conn.addr = some p.addr

/-- An `Establish` for a client whose connection is peered names the address it is peered with. -/
def RebindsSame (s : VoiceChannel) (e : Event) : Prop :=
  ∀ (clientId : Uuid) (addr : SocketAddr) (draw : Draw) (srcId : UInt32) (conn : Conn)
    (c : VoiceConnection) (p : Peered), e = .control (.establish clientId addr) draw →
    s.forwarder.clientIdToSrcId[clientId]? = some srcId →
    s.forwarder.connections[srcId]? = some conn → s.spawned[conn.tx]? = some c →
    c.phase = .peered p → addr = p.addr

def AllAgree (s : VoiceChannel) : Prop :=
  ∀ (k : UInt32) (conn : Conn) (c : VoiceConnection), s.forwarder.connections[k]? = some conn →
    s.spawned[conn.tx]? = some c → Agrees conn c

variable {env : Env} {s s' : VoiceChannel} {e : Event} {o : List Output}

theorem Wf.tx_ne (hWf : s.Wf) {k k' : UInt32} {conn conn' : Conn}
    (hConn : s.forwarder.connections[k]? = some conn)
    (hConn' : s.forwarder.connections[k']? = some conn') (hNe : k ≠ k') : conn.tx ≠ conn'.tx := by
  intro hEq
  obtain ⟨c, hTask, hKey⟩ := (hWf.records k conn hConn).task
  obtain ⟨c', hTask', hKey'⟩ := (hWf.records k' conn' hConn').task
  rw [hEq, hTask'] at hTask
  cases hTask
  exact hNe (hKey.symm.trans hKey')

theorem AllAgree.set (hAll : s.AllAgree) {tx : TaskId} {old new : VoiceConnection}
    (hOld : s.spawned[tx]? = some old) (hNew : ∀ conn, Agrees conn old → Agrees conn new) (k : UInt32)
    (conn : Conn) (c : VoiceConnection) (hConn : s.forwarder.connections[k]? = some conn)
    (hTask : (s.spawned.set tx new)[conn.tx]? = some c) : Agrees conn c := by
  rcases (getElem?_set_iff hOld).mp hTask with ⟨rfl, rfl⟩ | ⟨_, hTask⟩
  · exact hNew conn (hAll k conn old hConn hOld)
  · exact hAll k conn c hConn hTask

theorem AllAgree.opened (hAll : s.AllAgree) (hWf : s.Wf) (clientId : Uuid) (userName : String)
    (draw : Draw) : (s.opened clientId userName draw).AllAgree := by
  intro k conn c hConn hTask
  rw [opened_connection] at hConn
  rcases opened_lookup hTask with hOld | ⟨hNew, rfl⟩
  · split at hConn
    · cases hConn
      exact absurd (List.getElem?_eq_some_iff.mp hOld).1 (Nat.lt_irrefl _)
    · exact hAll k conn c hConn hOld
  · split at hConn
    · constructor <;> simp [fresh]
    · obtain ⟨old, hOld, _⟩ := (hWf.records k conn hConn).task
      exact absurd (List.getElem?_eq_some_iff.mp hOld).1 (hNew ▸ Nat.lt_irrefl _)

theorem AllAgree.bound (hAll : s.AllAgree) (hWf : s.Wf) (hSettled : s.Settled) {srcId : UInt32}
    {old : Conn} {task : VoiceConnection} {addr : SocketAddr}
    (hFound : s.forwarder.connections[srcId]? = some old) (hOld : s.spawned[old.tx]? = some task)
    (hRunning : task.running = true) (hSame : ∀ p, task.phase = .peered p → addr = p.addr) :
    ((s.bind srcId old addr).asking old.tx task (.init addr)).AllAgree := by
  intro k conn c hConn hTask
  rw [asking_forwarder, bind_connection] at hConn
  rw [asking_spawned, bind_spawned, getElem?_set_iff hOld] at hTask
  split at hConn
  · cases hConn
    rcases hTask with ⟨_, rfl⟩ | ⟨hNe, _⟩
    · refine ⟨fun p hPhase => congrArg some (hSame p hPhase), fun initTimeout addr' _ hMem => ?_⟩
      simpa [hWf.drained hSettled hOld hRunning, eq_comm] using hMem
    · exact absurd rfl hNe
  · rename_i hNe
    rcases hTask with ⟨hEq, _⟩ | ⟨_, hTask⟩
    · exact absurd hEq.symm (hWf.tx_ne hFound hConn hNe)
    · exact hAll k conn c hConn hTask

theorem AllAgree.unbound (hAll : s.AllAgree) {srcId : UInt32} {old : Conn}
    (hStopped : s.taskRunning old.tx = false) (addr : SocketAddr) :
    (s.bind srcId old addr).AllAgree := by
  intro k conn c hConn hTask
  rw [bind_connection] at hConn
  split at hConn
  · cases hConn
    exact .ended _ (VoiceConnection.running_eq_false_iff.mp ((taskRunning_of hTask).symm.trans hStopped))
  · exact hAll k conn c hConn hTask

theorem AllAgree.step (hAll : s.AllAgree) (hWf : s.Wf) (hSame : s.RebindsSame e)
    (h : Effect env s e s' o) : s'.AllAgree := by
  intro k conn c hConn hTask
  cases h with
  | task tx branch old outcome hOld hPoll =>
    exact hAll.set hOld (fun conn hAgrees => hAgrees.poll hPoll) k conn c hConn hTask
  | pushed e tx sender msg old hAccepts hOld =>
    refine hAll.set hOld (fun conn hAgrees => ?_) k conn c hConn hTask
    simpa using hAgrees.queued [msg] [] (by simp)
  | asked e tx old req await hAsks hSettled hOld hRunning hOn hRequest hReq =>
    refine hAll.set hOld (fun conn hAgrees => ?_) k conn c hConn hTask
    simpa using hAgrees.queued [] [req] (by rcases hReq with rfl | ⟨rfl, _⟩ <;> simp)
  | opened clientId userName draw hAwait => exact hAll.opened hWf clientId userName draw k conn c hConn hTask
  | bound clientId addr draw srcId old task hAwait hClient hFound hOld hRunning =>
    have hCtl : old.ctl.tx = old.tx := (hWf.records srcId old hFound).ctl
    rw [hCtl] at hOld hTask hConn
    exact hAll.bound hWf (settled_of_event hAwait) hFound hOld hRunning
      (fun p => hSame clientId addr draw srcId old task p rfl hClient hFound hOld) k conn c hConn hTask
  | unbound clientId addr draw srcId old hAwait hClient hFound hStopped =>
    have hCtl : old.ctl.tx = old.tx := (hWf.records srcId old hFound).ctl
    exact hAll.unbound (hCtl ▸ hStopped) addr k conn c hConn hTask
  | reaped index task hAwait => exact hAll k conn c (reaped_connection hConn) hTask
  | undone | missing | ended => simp [panic, dropped] at hConn
  | _ => exact hAll k conn c hConn hTask

/-- After an `Establish` with another address the copies disagree. -/
theorem AddrsAgree.rebindsSame (hWf : s.Wf) (hStep : VoiceChannel.step env s e = some (s', o))
    (hAgree : s'.AddrsAgree) : s.RebindsSame e := by
  rintro clientId addr draw srcId conn c p rfl hClient hConn hTask hPhase
  have hRunning : c.running = true := by simp [VoiceConnection.running_iff, hPhase]
  have hCtl : conn.ctl.tx = conn.tx := (hWf.records srcId conn hConn).ctl
  obtain ⟨_, hEq⟩ := select_eq_some_iff.mp hStep
  have hAsked : (s.bind srcId conn addr).request conn.ctl.tx (.init addr) =
      some ((s.bind srcId conn addr).asking conn.ctl.tx c (.init addr)) :=
    request_eq_some_iff.mpr ⟨c, hCtl ▸ hTask, hRunning, rfl⟩
  simp only [controlMsg, establish, hClient, hConn, hAsked] at hEq
  cases hEq
  have hRebound : ((s.bind srcId conn addr).asking conn.ctl.tx c (.init addr)).forwarder.connections[srcId]? =
      some { conn with addr := some addr } := by
    rw [asking_forwarder, bind_connection, if_pos rfl]
  have hStill : (s.spawned.set conn.ctl.tx { c with controlChan := c.controlChan ++ [.init addr] })[conn.tx]? =
      some { c with controlChan := c.controlChan ++ [.init addr] } := by
    rw [hCtl]
    exact getElem?_set_here hTask
  exact Option.some.inj (hAgree srcId { conn with addr := some addr } _ p hRebound hStill hPhase)

theorem new_allAgree (roomId : Uuid) (now : Instant) : (new roomId now).AllAgree := by
  simp [AllAgree, new]

theorem addrsAgree_along {roomId : Uuid} {now : Instant} {es : List Event} {tr : List Output}
    (hAlong : Machine.Along (VoiceChannel.step env) RebindsSame (new roomId now) es)
    (hRun : Machine.run (VoiceChannel.step env) (new roomId now) es = some (s, tr)) :
    s.AddrsAgree := by
  have hAll : s.Wf ∧ s.AllAgree := by
    refine Machine.run_induction_along (P := fun s _ => s.Wf ∧ s.AllAgree)
      ⟨new_wf roomId now, new_allAgree roomId now⟩ ?_ hAlong hRun
    rintro s₁ _ e s₂ o ⟨hWf, hAll⟩ hSame hStep
    exact ⟨hWf.step (step_effect hStep), hAll.step hWf hSame (step_effect hStep)⟩
  exact fun k conn c p hConn hTask hPhase => (hAll.2 k conn c hConn hTask).peered p hPhase

/-- The two addresses of every peered connection agree in all states of a run exactly when every
`Establish` for a peered connection names the address it is peered with. -/
theorem addrsAgree_iff (env : Env) (roomId : Uuid) (now : Instant) (es : List Event)
    (s : VoiceChannel) (tr : List Output)
    (hRun : Machine.run (VoiceChannel.step env) (new roomId now) es = some (s, tr)) :
    (∀ es₁ es₂ s₁ tr₁, es = es₁ ++ es₂ →
        Machine.run (VoiceChannel.step env) (new roomId now) es₁ = some (s₁, tr₁) →
        s₁.AddrsAgree) ↔
      Machine.Along (VoiceChannel.step env) RebindsSame (new roomId now) es := by
  constructor
  · intro hAgree
    refine Machine.along_of_prefix hRun fun es₁ e es₂ s₁ s₂ tr₁ o hEq hFirst hStep => ?_
    have hSecond : Machine.run (VoiceChannel.step env) (new roomId now) (es₁ ++ [e]) =
        some (s₂, tr₁ ++ o) := Machine.run_snoc_iff.mpr ⟨s₁, tr₁, o, hFirst, hStep, rfl⟩
    refine AddrsAgree.rebindsSame (wf hFirst) hStep (hAgree (es₁ ++ [e]) es₂ s₂ _ ?_ hSecond)
    rw [hEq, List.append_assoc, List.singleton_append]
  · rintro hAlong es₁ es₂ s₁ tr₁ rfl hFirst
    exact addrsAgree_along hAlong.init hFirst

def rebound : List Event :=
  [.control (.openConnection 1 "a") ⟨10, []⟩, .control (.establish 1 ⟨.v4 1, 9⟩) ⟨0, []⟩,
    .task 0 .control, .resume, .control (.establish 1 ⟨.v4 2, 9⟩) ⟨0, []⟩]

theorem addrsAgree_iff_rebound : ∃ s tr,
    Machine.run (VoiceChannel.step .bare) (new 7 0) rebound = some (s, tr) ∧
      ((∀ es₁ es₂ s₁ tr₁, rebound = es₁ ++ es₂ →
          Machine.run (VoiceChannel.step .bare) (new 7 0) es₁ = some (s₁, tr₁) → s₁.AddrsAgree) ↔
        Machine.Along (VoiceChannel.step .bare) RebindsSame (new 7 0) rebound) := by
  have hEnabled : (Machine.run (VoiceChannel.step .bare) (new 7 0) rebound).isSome = true := by decide
  obtain ⟨⟨s, tr⟩, hRun⟩ := Option.isSome_iff_exists.mp hEnabled
  exact ⟨s, tr, hRun, addrsAgree_iff .bare 7 0 rebound s tr hRun⟩

theorem not_addrsAgree : ¬ ∀ (env : Env) (roomId : Uuid) (now : Instant) (es : List Event)
    (s : VoiceChannel) (tr : List Output),
    Machine.run (VoiceChannel.step env) (new roomId now) es = some (s, tr) → s.AddrsAgree := by
  intro hAll
  have hLast : (Machine.run (VoiceChannel.step .bare) (new 7 0) rebound).map (fun last =>
      (last.1.forwarder.connections[(10 : UInt32)]?.map fun conn => (conn.tx, conn.addr),
        last.1.spawned[0]?.map fun c : VoiceConnection => c.phase.peer)) =
      some (some (0, some ⟨.v4 2, 9⟩), some (some ⟨.v4 1, 9⟩)) := by
    decide
  obtain ⟨⟨s, tr⟩, hRun, hState⟩ := Option.map_eq_some_iff.mp hLast
  obtain ⟨hRecord, hSpawned⟩ := Prod.mk.inj hState
  obtain ⟨conn, hConn, hFields⟩ := Option.map_eq_some_iff.mp hRecord
  obtain ⟨hTx, hAddr⟩ := Prod.mk.inj hFields
  obtain ⟨c, hTask, hPeer⟩ := Option.map_eq_some_iff.mp hSpawned
  obtain ⟨p, hPhase, hPeerAddr⟩ := Phase.peer_eq_some_iff.mp hPeer
  have hAgree := hAll .bare 7 0 rebound s tr hRun 10 conn c p hConn (hTx ▸ hTask) hPhase
  rw [hAddr, hPeerAddr] at hAgree
  revert hAgree
  decide

end VoiceChannel

end Voices.VoiceServer
