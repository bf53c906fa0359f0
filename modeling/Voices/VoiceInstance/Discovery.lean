import Voices.Gateway.Session
import Voices.VoiceInstance.Remote
import Voices.VoiceServer.Tables
import Voices.WsProto.Messages

/-!
# The discovered address

A client learns from the forwarder under which address its datagrams arrive,
announces it to its gateway, and the gateway asks the voice server to bind it.
On the way the address is a text with a port of 32 bits in the answer of the
forwarder, an address in the announcement, and again a text between a gateway
and a remote voice server.
-/

namespace Voices.VoiceInstance

open Semantics VoiceServer WsProto

/-- `UdpSetup::discover_ip`: what it makes of the message that it receives. -/
def discoverIp (parseIp : String → Option IpAddr) (message : ServerMessage) : Option SocketAddr :=
  match message.message with
  | some (.ipDisco response) => (parseIp response.ip).map fun ip => ⟨ip, response.port.toUInt16⟩
  | _ => none

/-- The client announces what it discovered. -/
def announce (external : SocketAddr) : ClientAnnounce := { ip := external.ip, port := external.port }

/-- `initialize_voice_connection`: the announced address, unless it is unspecified. -/
def clientAddr (clientUdp : ClientAnnounce) : Option SocketAddr :=
  if Gateway.isUnspecified clientUdp.ip then none else some ⟨clientUdp.ip, clientUdp.port⟩

/-- The request that the voice server receives, in the same process or over gRPC. -/
def receivedRequest (texts : Texts) (overGrpc : Bool) (request : EstablishSession) :
    Except Status EstablishSession :=
  if overGrpc then Grpc.toEstablishSession texts (Remote.ofEstablishSession texts request)
  else .ok request

def boundAddr (parseIp : String → Option IpAddr) (message : ServerMessage) : Option SocketAddr :=
  (discoverIp parseIp message).bind fun external => clientAddr (announce external)

theorem receivedRequest_eq (texts : Texts) (overGrpc : Bool) (request : EstablishSession) :
    receivedRequest texts overGrpc request = .ok request := by
  cases overGrpc with
  | false => rfl
  | true => exact Grpc.toEstablishSession_ofEstablishSession request

/-- The same address, or the other of an address of version four and its mapped form. -/
def IsFormOf (ip owner : IpAddr) : Prop :=
  ip = owner ∨ (∃ v4, owner = .v4 v4 ∧ ip = .v6 (toIpv6Mapped v4)) ∨
    (∃ v4, owner = .v6 (toIpv6Mapped v4) ∧ ip = .v4 v4)

theorem sameAddr_iff {bound sender : SocketAddr} :
    sameAddr bound sender = true ↔ sender.port = bound.port ∧ IsFormOf sender.ip bound.ip := by
  obtain ⟨boundIp, boundPort⟩ := bound
  obtain ⟨senderIp, senderPort⟩ := sender
  rw [sameAddr, Bool.and_eq_true, beq_iff_eq, eq_comm (a := boundPort)]
  refine and_congr_right fun _ => ?_
  cases boundIp with
  | v4 l =>
    cases senderIp with
    | v4 r =>
      refine ⟨fun h => .inl (congrArg IpAddr.v4 (beq_iff_eq.mp h).symm), ?_⟩
      rintro (h | ⟨_, _, h⟩ | ⟨_, h, _⟩) <;> cases h
      exact beq_self_eq_true l
    | v6 r =>
      refine ⟨fun h => .inr (.inl ⟨l, rfl, congrArg IpAddr.v6 (beq_iff_eq.mp h).symm⟩), ?_⟩
      rintro (h | ⟨_, h, h'⟩ | ⟨_, h, _⟩) <;> cases h
      cases h'
      exact beq_self_eq_true _
  | v6 l =>
    cases senderIp with
    | v4 r =>
      refine ⟨fun h => .inr (.inr ⟨r, congrArg IpAddr.v6 (beq_iff_eq.mp h), rfl⟩), ?_⟩
      rintro (h | ⟨_, h, _⟩ | ⟨_, h, h'⟩) <;> cases h
      cases h'
      exact beq_self_eq_true _
    | v6 r =>
      refine ⟨fun h => .inl (congrArg IpAddr.v6 (beq_iff_eq.mp h).symm), ?_⟩
      rintro (h | ⟨_, h, _⟩ | ⟨_, _, h⟩) <;> cases h
      exact beq_self_eq_true l

/-- `Conn::forward` lets a datagram of this sender pass. -/
def accepts (conn : Conn) (sender : SocketAddr) : Bool :=
  match conn.addr with
  | some addr => sameAddr addr sender
  | none => false

variable {env : Env} {s s' : VoiceChannel} {o : List Output}

theorem connForward_of_accepts {conn : Conn} {sender : SocketAddr} {msg : InternalMsg}
    (hAccepts : accepts conn sender = true) :
    s.connForward conn sender msg = s.sendMsg conn.tx sender msg := by
  unfold accepts at hAccepts
  unfold VoiceChannel.connForward
  split at hAccepts
  · rename_i addr hAddr
    simp only [hAddr, hAccepts, if_true]
  · cases hAccepts

theorem connForward_of_not_accepts {conn : Conn} {sender : SocketAddr} {msg : InternalMsg}
    (hAccepts : accepts conn sender = false) :
    ∃ error, s.connForward conn sender msg = s.forwardFailed error := by
  unfold accepts at hAccepts
  unfold VoiceChannel.connForward
  split at hAccepts
  · rename_i addr hAddr
    exact ⟨.badAddr addr sender, by simp [hAddr, hAccepts]⟩
  · rename_i hAddr
    exact ⟨.sessionNotEstablished, by rw [hAddr]⟩

theorem boundAddr_of_ipDisco {parseIp : String → Option IpAddr} {sender : SocketAddr}
    {disco : IpDiscoveryRequest} {sendOk : Bool} {message : ServerMessage}
    (hParse : parseIp sender.ip.toString = some sender.ip)
    (hSpecified : Gateway.isUnspecified sender.ip = false)
    (hAnswer : .sent sender message ∈ (s.ipDisco sender disco sendOk).2) :
    boundAddr parseIp message = some sender := by
  have hMessage : message =
      .ipDisco { ip := sender.ip.toString, port := sender.port.toUInt32 } := by
    unfold VoiceChannel.ipDisco VoiceChannel.returned at hAnswer
    split at hAnswer
    · cases sendOk with
      | true => simpa using hAnswer
      | false => simp at hAnswer
    · simp at hAnswer
  rw [hMessage, boundAddr, discoverIp, ServerMessage.ipDisco]
  simp [hParse, announce, clientAddr, hSpecified]

/-- The connection that the task `tx` has under `srcId`, while it is there, is bound to `addr`. -/
structure BoundTo (srcId : UInt32) (tx : TaskId) (addr : SocketAddr) (s : VoiceChannel) : Prop where
  spawned : tx < s.spawned.length
  bound : ∀ conn, s.forwarder.connections[srcId]? = some conn → conn.tx = tx → conn.addr = some addr

/-- No request binds the connection again. -/
def NotRebound (srcId : UInt32) (s : VoiceChannel) (e : VoiceServer.Event) : Prop :=
  ∀ clientId addr draw, e = .control (.establish clientId addr) draw →
    s.forwarder.clientIdToSrcId[clientId]? ≠ some srcId

theorem boundTo_establish {clientId : Uuid} {addr : SocketAddr} {draw : Draw} {srcId : UInt32}
    {conn : Conn} (hClient : s.forwarder.clientIdToSrcId[clientId]? = some srcId)
    (hConn : s.forwarder.connections[srcId]? = some conn) (hTask : conn.tx < s.spawned.length)
    (hStep : s.step env (.control (.establish clientId addr) draw) = some (s', o)) :
    BoundTo srcId conn.tx addr s' := by
  have hHandled : s.establish clientId addr = (s', o) := by
    simp only [VoiceChannel.step, VoiceChannel.select, VoiceChannel.controlMsg] at hStep
    split at hStep
    · exact Option.some.inj hStep
    · cases hStep
  have hBound (other : Conn) (hFound : (s.bind srcId conn addr).forwarder.connections[srcId]? = some other) :
      other.addr = some addr := by
    rw [VoiceChannel.bind_connection, if_pos rfl] at hFound
    cases hFound
    rfl
  simp only [VoiceChannel.establish, hClient, hConn] at hHandled
  cases hRequest : (s.bind srcId conn addr).request conn.ctl.tx (.init addr) with
  | none =>
    rw [hRequest] at hHandled
    cases hHandled
    exact ⟨hTask, fun other hFound _ => hBound other hFound⟩
  | some asked =>
    rw [hRequest] at hHandled
    cases hHandled
    obtain ⟨c, _, _, rfl⟩ := VoiceChannel.request_eq_some_iff.mp hRequest
    refine ⟨?_, fun other hFound _ => hBound other hFound⟩
    simpa using hTask

theorem boundTo_step {e : VoiceServer.Event} {srcId : UInt32} {tx : TaskId} {addr : SocketAddr}
    (hBound : BoundTo srcId tx addr s) (hNot : NotRebound srcId s e)
    (hStep : s.step env e = some (s', o)) : BoundTo srcId tx addr s' := by
  have hEffect : Effect env s e s' o := VoiceChannel.step_effect hStep
  refine ⟨Nat.lt_of_lt_of_le hBound.spawned hEffect.tasks.length_le, ?_⟩
  intro conn hConn hTx
  have hRebind (clientId : Uuid) (other : SocketAddr) (draw : Draw) (k : UInt32) (old : Conn)
      (hEvent : e = .control (.establish clientId other) draw)
      (hClient : s.forwarder.clientIdToSrcId[clientId]? = some k)
      (hFound : (s.bind k old other).forwarder.connections[srcId]? = some conn) :
      conn.addr = some addr := by
    have hNe : k ≠ srcId := by
      rintro rfl
      exact hNot clientId other draw hEvent hClient
    rw [VoiceChannel.bind_connection, if_neg hNe] at hFound
    exact hBound.bound conn hFound hTx
  cases hEffect with
  | bound clientId other draw k old c hAwait hClient =>
    exact hRebind clientId other draw k old rfl hClient hConn
  | unbound clientId other draw k old hAwait hClient =>
    exact hRebind clientId other draw k old rfl hClient hConn
  | opened clientId userName draw =>
    rw [VoiceChannel.turn_forwarder, VoiceChannel.opened_connection] at hConn
    split at hConn
    · cases hConn
      exact absurd hBound.spawned (hTx ▸ Nat.lt_irrefl _)
    · exact hBound.bound conn hConn hTx
  | reaped index task => exact hBound.bound conn (VoiceChannel.reaped_connection hConn) hTx
  | undone | missing | ended =>
    simp [VoiceChannel.panic, VoiceChannel.dropped] at hConn
  | _ => exact hBound.bound conn hConn hTx

/-- The forwarder bound the connection `conn` to the address at some time, and
has not been asked to bind it again. -/
inductive Established (env : Env) (addr : SocketAddr) : Conn → Prop where
  | later {roomId : Uuid} {now : Instant} {es fs : List VoiceServer.Event} {s s₁ s₂ : VoiceChannel}
      {tr o tr₂ : List Output} {clientId : Uuid} {draw : Draw} {srcId : UInt32} {old conn : Conn}
      (hRun : Machine.run (VoiceChannel.step env) (.new roomId now) es = some (s, tr))
      (hClient : s.forwarder.clientIdToSrcId[clientId]? = some srcId)
      (hOld : s.forwarder.connections[srcId]? = some old)
      (hStep : s.step env (.control (.establish clientId addr) draw) = some (s₁, o))
      (hRest : Machine.run (VoiceChannel.step env) s₁ fs = some (s₂, tr₂))
      (hAlong : Machine.Along (VoiceChannel.step env) (NotRebound srcId) s₁ fs)
      (hConn : s₂.forwarder.connections[srcId]? = some conn) (hSame : conn.tx = old.tx) :
      Established env addr conn

theorem Established.addr_eq {addr : SocketAddr} {conn : Conn} (h : Established env addr conn) :
    conn.addr = some addr := by
  cases h with
  | later hRun hClient hOld hStep hRest hAlong hConn hSame =>
    obtain ⟨c, hTask, _⟩ := ((VoiceChannel.wf hRun).records _ _ hOld).task
    have hBound := boundTo_establish hClient hOld (List.getElem?_eq_some_iff.mp hTask).1 hStep
    have hLater := Machine.run_induction_along (P := fun s _ => BoundTo _ _ addr s) hBound
      (fun _ _ _ _ _ hBound hNot hStep => boundTo_step hBound hNot hStep) hAlong hRest
    exact hLater.bound conn hConn hSame

/-- The answer to a discovery request leads to a binding that accepts the datagrams
of the sender, in either form of its address, and no others. -/
theorem discovered_address_accepted (texts : Texts) {parseIp : String → Option IpAddr}
    {owner : SocketAddr} {disco : IpDiscoveryRequest} {sendOk : Bool} {message : ServerMessage}
    (hParse : parseIp owner.ip.toString = some owner.ip)
    (hSpecified : Gateway.isUnspecified owner.ip = false)
    (hAnswer : .sent owner message ∈ (s.ipDisco owner disco sendOk).2) :
    ∃ addr, boundAddr parseIp message = some addr ∧
      (∀ overGrpc channelId clientId,
        receivedRequest texts overGrpc { channelId, clientId, clientAddr := addr } =
          .ok { channelId, clientId, clientAddr := addr }) ∧
      ∀ conn, Established env addr conn → ∀ sender,
        accepts conn sender = true ↔ sender.port = owner.port ∧ IsFormOf sender.ip owner.ip := by
  refine ⟨owner, boundAddr_of_ipDisco hParse hSpecified hAnswer,
    fun overGrpc channelId clientId => receivedRequest_eq texts overGrpc _, ?_⟩
  intro conn hEstablished sender
  rw [accepts, hEstablished.addr_eq]
  exact sameAddr_iff

/-- `IpAddr::from_str`, as far as it is asked. -/
def parseSome (text : String) : Option IpAddr :=
  if text = "10.0.0.1" then some (.v4 0x0a000001#32) else none

/-- A client that has opened its connection discovers that it is 10.0.0.1:5000. -/
def opened : VoiceChannel :=
  ((VoiceChannel.new 7 0).openConnection 1 "a" { sourceId := 3, cryptKey := [] }).1

/-- The client establishes its connection with that address, and its task answers. -/
theorem established_of_opened : ∃ conn, Established .bare ⟨.v4 0x0a000001#32, 5000⟩ conn := by
  let establish : VoiceServer.Event := .control (.establish 1 ⟨.v4 0x0a000001#32, 5000⟩) ⟨0, []⟩
  have hFacts : (Machine.run (VoiceChannel.step .bare) (.new 7 0)
      [.control (.openConnection 1 "a") ⟨3, []⟩]).bind (fun before =>
        (before.1.step .bare establish).bind fun bound =>
          (Machine.run (VoiceChannel.step .bare) bound.1 [.task 0 .control, .resume]).map fun last =>
            decide (before.1.forwarder.clientIdToSrcId[(1 : Uuid)]? = some 3 ∧
              before.1.forwarder.connections[(3 : UInt32)]?.map Conn.tx = some 0 ∧
              last.1.forwarder.connections[(3 : UInt32)]?.map Conn.tx = some 0)) = some true := by
    decide
  obtain ⟨⟨s, tr⟩, hRun, hBind⟩ := Option.bind_eq_some_iff.mp hFacts
  obtain ⟨⟨s₁, o⟩, hStep, hMap⟩ := Option.bind_eq_some_iff.mp hBind
  obtain ⟨⟨s₂, tr₂⟩, hRest, hState⟩ := Option.map_eq_some_iff.mp hMap
  obtain ⟨hClient, hOld, hConn⟩ := of_decide_eq_true hState
  obtain ⟨old, hOld, hOldTx⟩ := Option.map_eq_some_iff.mp hOld
  obtain ⟨conn, hConn, hTx⟩ := Option.map_eq_some_iff.mp hConn
  have hAlong : Machine.Along (VoiceChannel.step .bare) (NotRebound 3) s₁ [.task 0 .control, .resume] :=
    ⟨by simp [NotRebound], fun _ _ => ⟨by simp [NotRebound], fun _ _ => trivial⟩⟩
  exact ⟨conn, .later hRun hClient hOld hStep hRest hAlong hConn (hTx.trans hOldTx.symm)⟩

theorem discovered_address_accepted_of_opened :
    boundAddr parseSome (.ipDisco { ip := "10.0.0.1", port := 5000 }) = some ⟨.v4 0x0a000001#32, 5000⟩ ∧
      (∀ overGrpc channelId clientId,
        receivedRequest someTexts overGrpc
            { channelId, clientId, clientAddr := ⟨.v4 0x0a000001#32, 5000⟩ } =
          .ok { channelId, clientId, clientAddr := ⟨.v4 0x0a000001#32, 5000⟩ }) ∧
      ∃ conn, Established .bare ⟨.v4 0x0a000001#32, 5000⟩ conn ∧ ∀ sender,
        accepts conn sender = true ↔
          sender.port = 5000 ∧ IsFormOf sender.ip (.v4 0x0a000001#32) := by
  have hAnswer : .sent ⟨.v4 0x0a000001#32, 5000⟩ (.ipDisco { ip := "10.0.0.1", port := 5000 }) ∈
      (opened.ipDisco ⟨.v4 0x0a000001#32, 5000⟩ { uuid := [], sourceId := 3 } true).2 := by decide
  have hParse : parseSome (IpAddr.v4 0x0a000001#32).toString = some (.v4 0x0a000001#32) := by decide
  obtain ⟨addr, hAddr, hReceived, hAccepts⟩ :=
    discovered_address_accepted someTexts hParse (by decide) hAnswer
  have hBound : boundAddr parseSome (.ipDisco { ip := "10.0.0.1", port := 5000 }) =
      some ⟨.v4 0x0a000001#32, 5000⟩ := by decide
  cases hBound.symm.trans hAddr
  obtain ⟨conn, hEstablished⟩ := established_of_opened
  exact ⟨hBound, hReceived, conn, hEstablished, hAccepts conn hEstablished⟩

end Voices.VoiceInstance
