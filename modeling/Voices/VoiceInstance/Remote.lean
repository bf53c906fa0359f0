import Mathlib.Data.List.Infix
import Voices.VoiceInstance.Grpc

/-!
# The remote voice host

`remote.rs`: the host that reaches its voice server over gRPC. It translates
requests into messages and responses back, and reads off the text of a status
what was not found.
-/

namespace Voices.VoiceInstance

open Semantics VoiceServer

namespace Remote

/-- `str::contains`. -/
def contains (message part : String) : Bool := decide (part.toList <:+: message.toList)

def ofStatus (status : Status) : VoiceHostError :=
  match status.code with
  | .notFound =>
    if contains status.message "peer" then .notFound "client"
    else if contains status.message "channel" then .notFound "channel"
    else .notFound "something"
  | _ => .other "Voice host error"

def tryOpt {α : Type} (value : Option α) (fieldName : String) : Except VoiceHostError α :=
  match value with
  | some a => .ok a
  | none => .error (.other ("missing " ++ fieldName))

def parse {α : Type} (form : TextForm α) (value fieldName : String) : Except VoiceHostError α :=
  match form.parse value with
  | some a => .ok a
  | none => .error (.other ("bad " ++ fieldName ++ ": '" ++ value ++ "'"))

variable (texts : Texts)

def ofOpenConnection (request : OpenConnection) : Proto.OpenConnectionRequest where
  userName := request.userName
  userId := texts.uuid.display request.clientId
  channelId := texts.uuid.display request.channelId

def toConnectionData (response : Proto.OpenConnectionResponse) :
    Except VoiceHostError ConnectionData := do
  let sockAddr ← tryOpt response.udpSock "udp_sock"
  let ip ← parse texts.ip sockAddr.ip "ip"
  match Grpc.toPort sockAddr.port with
  | some port => return { sock := ⟨ip, port⟩, sourceId := response.srcId }
  | none => throw (.other ("port out of range: " ++ toString sockAddr.port))

def ofEstablishSession (request : EstablishSession) : Proto.EstablishSessionRequest where
  userId := texts.uuid.display request.clientId
  channelId := texts.uuid.display request.channelId
  clientSock := some
    { ip := texts.ip.display request.clientAddr.ip, port := request.clientAddr.port.toUInt32 }

def toSessionData (response : Proto.EstablishSessionResponse) : SessionData :=
  { cryptKey := response.cryptKey }

def toPeer (info : Proto.ClientInfo) : Except VoiceHostError Peer := do
  let clientId ← parse texts.uuid info.clientId "client_id"
  return { id := clientId, sourceId := info.srcId, name := info.name }

def toConnectionState (response : Proto.UserStatusResponse) : Except VoiceHostError ConnectionState := do
  match ← tryOpt response.status "status" with
  | .error => return .stopped
  | .peered => return .peered
  | .waiting => return .waiting

end Remote

/-- `RemoteVoiceHost`. -/
def remote (texts : Texts) (inner : VoiceServerClient) : VoiceHost where
  openConnection request := do
    let response ← (inner.openConnection (Remote.ofOpenConnection texts request)).mapError Remote.ofStatus
    Remote.toConnectionData texts response
  establishSession request := do
    let response ←
      (inner.establishSession (Remote.ofEstablishSession texts request)).mapError Remote.ofStatus
    return Remote.toSessionData response
  leave channelId clientId :=
    (inner.leave
      { userId := texts.uuid.display clientId
        channelId := texts.uuid.display channelId }).mapError Remote.ofStatus
  userStatus channelId clientId := do
    let response ← (inner.userStatus
      { channelId := texts.uuid.display channelId
        userId := texts.uuid.display clientId }).mapError Remote.ofStatus
    Remote.toConnectionState response
  status channelId := do
    let response ←
      (inner.status { channelId := texts.uuid.display channelId }).mapError Remote.ofStatus
    response.info.mapM (Remote.toPeer texts)

variable {texts : Texts} {server : VoiceServerImpl}

@[simp] theorem Grpc.parse_display {α : Type} (form : TextForm α) (a : α) (fieldName : String) :
    Grpc.parse form (form.display a) fieldName = .ok a := by
  rw [Grpc.parse, form.parse_display]

@[simp] theorem Remote.parse_display {α : Type} (form : TextForm α) (a : α) (fieldName : String) :
    Remote.parse form (form.display a) fieldName = .ok a := by
  rw [Remote.parse, form.parse_display]

@[simp] theorem Grpc.toPort_toUInt32 (port : UInt16) : Grpc.toPort port.toUInt32 = some port := by
  rw [Grpc.toPort, if_pos, UInt16.toUInt16_toUInt32]
  rw [UInt16.toNat_toUInt32]
  exact port.toNat_lt

@[simp] theorem Grpc.toOpenConnection_ofOpenConnection (request : OpenConnection) :
    Grpc.toOpenConnection texts (Remote.ofOpenConnection texts request) = .ok request := by
  simp [Grpc.toOpenConnection, Remote.ofOpenConnection, Except.bind, bind, pure, Except.pure]

@[simp] theorem Grpc.toEstablishSession_ofEstablishSession (request : EstablishSession) :
    Grpc.toEstablishSession texts (Remote.ofEstablishSession texts request) = .ok request := by
  simp [Grpc.toEstablishSession, Remote.ofEstablishSession, Grpc.tryOpt, Except.bind, bind, pure,
    Except.pure]

@[simp] theorem Remote.toConnectionData_ofConnectionData (data : ConnectionData) :
    Remote.toConnectionData texts (Grpc.ofConnectionData texts data) = .ok data := by
  simp [Remote.toConnectionData, Grpc.ofConnectionData, Grpc.ofSocketAddr, Remote.tryOpt,
    Except.bind, bind, pure, Except.pure]

@[simp] theorem Remote.toConnectionState_ofConnectionState (state : ConnectionState) :
    Remote.toConnectionState { status := some (Grpc.ofConnectionState state) } = .ok state := by
  cases state <;> rfl

theorem Remote.mapM_toPeer (peers : List Peer) :
    (peers.map (Grpc.ofPeer texts)).mapM (Remote.toPeer texts) = .ok peers := by
  induction peers with
  | nil => rfl
  | cons peer peers ih =>
    rw [List.map_cons, List.mapM_cons, ih]
    simp [Remote.toPeer, Grpc.ofPeer, Except.bind, bind, pure, Except.pure]

/-- A call whose response decodes to what the server answered. -/
theorem mapError_call {ε α β : Type} {result : Except ε α} {toStatus : ε → Status} {encode : α → β}
    {decode : β → Except VoiceHostError α} (hDecode : ∀ a, decode (encode a) = .ok a) :
    ((result.mapError toStatus >>= fun a => pure (encode a)).mapError Remote.ofStatus >>= decode) =
      result.mapError fun e => Remote.ofStatus (toStatus e) := by
  cases result with
  | ok a => exact hDecode a
  | error e => rfl

theorem remote_openConnection (request : OpenConnection) :
    (remote texts (grpc texts server)).openConnection request =
      (server.openConnection request).mapError fun e =>
        Remote.ofStatus (Grpc.mapOpenConnectionError e) := by
  simp only [remote, grpc, Grpc.toOpenConnection_ofOpenConnection]
  exact mapError_call Remote.toConnectionData_ofConnectionData

theorem remote_establishSession (request : EstablishSession) :
    (remote texts (grpc texts server)).establishSession request =
      (server.establishSession request).mapError fun e =>
        Remote.ofStatus (Grpc.mapEstablishSessionError e) := by
  simp only [remote, grpc, Grpc.toEstablishSession_ofEstablishSession]
  exact mapError_call fun _ => rfl

theorem remote_leave (channelId clientId : Uuid) :
    (remote texts (grpc texts server)).leave channelId clientId =
      (server.leave channelId clientId).mapError fun e => Remote.ofStatus (Grpc.mapLeaveError e) := by
  simp only [remote, grpc, Grpc.parse_display]
  cases hResult : server.leave channelId clientId with
  | ok _ => simp only [bind, Except.bind, hResult, Except.mapError]
  | error e => simp only [bind, Except.bind, hResult, Except.mapError]

theorem remote_userStatus (channelId clientId : Uuid) :
    (remote texts (grpc texts server)).userStatus channelId clientId =
      (server.userStatus channelId clientId).mapError fun e =>
        Remote.ofStatus (Grpc.mapStatusError e) := by
  simp only [remote, grpc, Grpc.parse_display]
  exact mapError_call Remote.toConnectionState_ofConnectionState

theorem remote_status (channelId : Uuid) :
    (remote texts (grpc texts server)).status channelId =
      (server.status channelId).mapError fun e => Remote.ofStatus (Grpc.mapStatusError e) := by
  simp only [remote, grpc, Grpc.parse_display]
  exact mapError_call Remote.mapM_toPeer

theorem ofStatus_mapChannelNotFound : Remote.ofStatus Grpc.mapChannelNotFound = .notFound "channel" := by
  decide

/-- The text of the status mentions neither a peer nor a channel. -/
theorem ofStatus_mapPeerNotFound : Remote.ofStatus Grpc.mapPeerNotFound = .notFound "something" := by
  decide

/-- What both hosts make of an error of the server. -/
def AgreeOn (e e' : VoiceHostError) : Prop :=
  Agree (.error e : Except VoiceHostError Unit) (.error e')

theorem agreeOn_channelNotFound :
    AgreeOn (Remote.ofStatus Grpc.mapChannelNotFound) (.notFound "channel") := by
  rw [ofStatus_mapChannelNotFound]
  rfl

theorem not_agreeOn_peerNotFound : ¬ AgreeOn (Remote.ofStatus Grpc.mapPeerNotFound) (.notFound "peer") := by
  rw [ofStatus_mapPeerNotFound]
  exact (by decide : ("something" : String) ≠ "peer")

theorem agreeOn_openConnectionError (e : OpenConnectionError) :
    AgreeOn (Remote.ofStatus (Grpc.mapOpenConnectionError e)) (.ofOpenConnectionError e) := by
  cases e with
  | channelNotFound => exact agreeOn_channelNotFound
  | noOpenPorts => trivial
  | other error => trivial

theorem agreeOn_establishSessionError_iff (e : EstablishSessionError) :
    AgreeOn (Remote.ofStatus (Grpc.mapEstablishSessionError e)) (.ofEstablishSessionError e) ↔
      e ≠ .peerNotFound := by
  cases e with
  | peerNotFound => exact iff_of_false not_agreeOn_peerNotFound (not_not.mpr rfl)
  | channelNotFound => exact iff_of_true agreeOn_channelNotFound nofun
  | other error => exact iff_of_true trivial nofun

theorem agreeOn_leaveError_iff (e : LeaveError) :
    AgreeOn (Remote.ofStatus (Grpc.mapLeaveError e)) (.ofLeaveError e) ↔ e ≠ .peerNotFound := by
  cases e with
  | peerNotFound => exact iff_of_false not_agreeOn_peerNotFound (not_not.mpr rfl)
  | channelNotFound => exact iff_of_true agreeOn_channelNotFound nofun

theorem agreeOn_statusError_iff (e : StatusError) :
    AgreeOn (Remote.ofStatus (Grpc.mapStatusError e)) (.ofStatusError e) ↔ e ≠ .peerNotFound := by
  cases e with
  | peerNotFound => exact iff_of_false not_agreeOn_peerNotFound (not_not.mpr rfl)
  | channelNotFound => exact iff_of_true agreeOn_channelNotFound nofun
  | other error => exact iff_of_true trivial nofun

theorem agree_error_iff {α : Type} {e e' : VoiceHostError} :
    Agree (.error e : Except VoiceHostError α) (.error e') ↔ AgreeOn e e' := by
  cases e <;> cases e' <;> rfl

theorem agree_mapError {ε α : Type} {result : Except ε α} {f g : ε → VoiceHostError}
    (hErrors : ∀ e, AgreeOn (f e) (g e)) : Agree (result.mapError f) (result.mapError g) := by
  cases result with
  | ok a => rfl
  | error e => exact agree_error_iff.mpr (hErrors e)

/-- Two translations of one result differ only on the errors on which they differ. -/
theorem agree_mapError_iff {ε α : Type} {result : Except ε α} {f g : ε → VoiceHostError} {bad : ε}
    (hErrors : ∀ e, AgreeOn (f e) (g e) ↔ e ≠ bad) :
    Agree (result.mapError f) (result.mapError g) ↔ result ≠ .error bad := by
  cases result with
  | ok a => exact iff_of_true rfl nofun
  | error e =>
    refine agree_error_iff.trans ((hErrors e).trans (not_congr ⟨fun hEq => congrArg Except.error hEq, ?_⟩))
    intro hEq
    cases hEq
    rfl

/-- Both hosts tell the same of every result but a peer that was not found. -/
theorem remote_agrees_iff (texts : Texts) (server : VoiceServerImpl) :
    (∀ request, Agree ((remote texts (grpc texts server)).openConnection request)
      ((integrated server).openConnection request)) ∧
    (∀ request, Agree ((remote texts (grpc texts server)).establishSession request)
        ((integrated server).establishSession request) ↔
      server.establishSession request ≠ .error .peerNotFound) ∧
    (∀ channelId clientId, Agree ((remote texts (grpc texts server)).leave channelId clientId)
        ((integrated server).leave channelId clientId) ↔
      server.leave channelId clientId ≠ .error .peerNotFound) ∧
    (∀ channelId clientId, Agree ((remote texts (grpc texts server)).userStatus channelId clientId)
        ((integrated server).userStatus channelId clientId) ↔
      server.userStatus channelId clientId ≠ .error .peerNotFound) ∧
    (∀ channelId, Agree ((remote texts (grpc texts server)).status channelId)
        ((integrated server).status channelId) ↔
      server.status channelId ≠ .error .peerNotFound) := by
  refine ⟨fun request => ?_, fun request => ?_, fun channelId clientId => ?_,
    fun channelId clientId => ?_, fun channelId => ?_⟩
  · rw [remote_openConnection, integrated]
    exact agree_mapError agreeOn_openConnectionError
  · rw [remote_establishSession, integrated]
    exact agree_mapError_iff agreeOn_establishSessionError_iff
  · rw [remote_leave, integrated]
    exact agree_mapError_iff agreeOn_leaveError_iff
  · rw [remote_userStatus, integrated]
    exact agree_mapError_iff agreeOn_statusError_iff
  · rw [remote_status, integrated]
    exact agree_mapError_iff agreeOn_statusError_iff

def ipNumber : IpAddr → Nat
  | .v4 ip => 2 * ip.toNat
  | .v6 ip => 2 * ip.toNat + 1

def ipOfNumber (n : Nat) : IpAddr :=
  if n % 2 = 0 then .v4 (BitVec.ofNat 32 (n / 2)) else .v6 (BitVec.ofNat 128 (n / 2))

theorem ipOfNumber_ipNumber (ip : IpAddr) : ipOfNumber (ipNumber ip) = ip := by
  cases ip with
  | v4 ip => simp [ipNumber, ipOfNumber]
  | v6 ip =>
    have hHalf : (2 * ip.toNat + 1) / 2 = ip.toNat := by omega
    simp [ipNumber, ipOfNumber, hHalf]

def idTexts : TextForm Uuid := .tally BitVec.toNat (BitVec.ofNat 128) fun id => by simp

def ipTexts : TextForm IpAddr := .tally ipNumber ipOfNumber ipOfNumber_ipNumber

/-- Texts that are the usual ones for the ids 1 and 7 and the address 10.0.0.1. -/
def someTexts : Texts where
  uuid := (idTexts.withText 1 "00000000-0000-0000-0000-000000000001" (by decide)).withText 7
    "00000000-0000-0000-0000-000000000007" (by decide)
  ip := ipTexts.withText (.v4 0x0a000001#32) "10.0.0.1" (by decide)

/-- A server on which nobody is present. -/
def emptyServer : VoiceServerImpl where
  openConnection _ := .error .channelNotFound
  establishSession _ := .error .peerNotFound
  leave _ _ := .error .peerNotFound
  userStatus _ _ := .error .peerNotFound
  status _ := .ok []

theorem not_remote_agrees :
    ¬ ∀ (texts : Texts) (server : VoiceServerImpl) (channelId clientId : Uuid),
      Agree ((remote texts (grpc texts server)).leave channelId clientId)
        ((integrated server).leave channelId clientId) := by
  intro h
  have hAgree := h someTexts emptyServer 7 1
  rw [remote_leave] at hAgree
  exact not_agreeOn_peerNotFound hAgree

end Voices.VoiceInstance
