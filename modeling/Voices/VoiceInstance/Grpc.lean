import Voices.Semantics.TextForm
import Voices.VoiceInstance.Host

/-!
# The voice server over gRPC

`service.rs`: the messages of `service.proto`, in which ids and IP addresses are
texts and a port has 32 bits, and the service that answers them from a
`VoiceServerImpl`.
-/

namespace Voices.VoiceInstance

open Semantics VoiceServer

namespace Proto

structure SockAddr where
  ip : String
  port : UInt32
  deriving DecidableEq

structure OpenConnectionRequest where
  userName : String
  userId : String
  channelId : String
  deriving DecidableEq

structure OpenConnectionResponse where
  udpSock : Option SockAddr
  srcId : UInt32
  deriving DecidableEq

structure EstablishSessionRequest where
  userId : String
  channelId : String
  clientSock : Option SockAddr
  deriving DecidableEq

structure EstablishSessionResponse where
  cryptKey : List UInt8
  deriving DecidableEq

structure LeaveRequest where
  userId : String
  channelId : String
  deriving DecidableEq

structure UserStatusRequest where
  userId : String
  channelId : String
  deriving DecidableEq

inductive UserStatus where
  | waiting
  | peered
  | error
  deriving DecidableEq

structure UserStatusResponse where
  status : Option UserStatus
  deriving DecidableEq

structure StatusRequest where
  channelId : String
  deriving DecidableEq

structure ClientInfo where
  clientId : String
  srcId : UInt32
  name : String
  deriving DecidableEq

structure StatusResponse where
  info : List ClientInfo
  deriving DecidableEq

end Proto

inductive Code where
  | invalidArgument
  | notFound
  | unavailable
  | internal
  deriving DecidableEq

structure Status where
  code : Code
  message : String
  deriving DecidableEq

/-- How the ids and the IP addresses of the messages are written. -/
structure Texts where
  uuid : TextForm Uuid
  ip : TextForm IpAddr

/-- The calls of `VoiceServerClient`, with the responses and statuses that arrive. -/
structure VoiceServerClient where
  openConnection : Proto.OpenConnectionRequest → Except Status Proto.OpenConnectionResponse
  establishSession : Proto.EstablishSessionRequest → Except Status Proto.EstablishSessionResponse
  leave : Proto.LeaveRequest → Except Status Unit
  userStatus : Proto.UserStatusRequest → Except Status Proto.UserStatusResponse
  status : Proto.StatusRequest → Except Status Proto.StatusResponse

namespace Grpc

def parse {α : Type} (form : TextForm α) (value fieldName : String) : Except Status α :=
  match form.parse value with
  | some a => .ok a
  | none => .error ⟨.invalidArgument, "bad " ++ fieldName⟩

def tryOpt {α : Type} (value : Option α) (fieldName : String) : Except Status α :=
  match value with
  | some a => .ok a
  | none => .error ⟨.invalidArgument, "missing " ++ fieldName⟩

/-- `u16::try_from`. -/
def toPort (port : UInt32) : Option UInt16 := if port.toNat < 2 ^ 16 then some port.toUInt16 else none

def mapPeerNotFound : Status := ⟨.notFound, "client not present"⟩

def mapChannelNotFound : Status := ⟨.notFound, "channel not hosted here"⟩

def mapOpenConnectionError : OpenConnectionError → Status
  | .noOpenPorts => ⟨.unavailable, "server full"⟩
  | .other _ => ⟨.internal, "internal error"⟩
  | .channelNotFound => mapChannelNotFound

def mapEstablishSessionError : EstablishSessionError → Status
  | .peerNotFound => mapPeerNotFound
  | .other _ => ⟨.internal, "internal error"⟩
  | .channelNotFound => mapChannelNotFound

def mapLeaveError : LeaveError → Status
  | .peerNotFound => mapPeerNotFound
  | .channelNotFound => mapChannelNotFound

def mapStatusError : StatusError → Status
  | .peerNotFound => mapPeerNotFound
  | .channelNotFound => mapChannelNotFound
  | .other _ => ⟨.internal, "internal error"⟩

variable (texts : Texts)

def ofSocketAddr (addr : SocketAddr) : Proto.SockAddr :=
  { ip := texts.ip.display addr.ip, port := addr.port.toUInt32 }

def ofConnectionData (data : ConnectionData) : Proto.OpenConnectionResponse :=
  { udpSock := some (ofSocketAddr texts data.sock), srcId := data.sourceId }

def ofSessionData (data : SessionData) : Proto.EstablishSessionResponse := { cryptKey := data.cryptKey }

def ofConnectionState : ConnectionState → Proto.UserStatus
  | .waiting => .waiting
  | .peered => .peered
  | .stopped => .error

def ofPeer (peer : Peer) : Proto.ClientInfo :=
  { clientId := texts.uuid.display peer.id, srcId := peer.sourceId, name := peer.name }

def toOpenConnection (req : Proto.OpenConnectionRequest) : Except Status OpenConnection := do
  let clientId ← parse texts.uuid req.userId "user_id"
  let channelId ← parse texts.uuid req.channelId "channel_id"
  return { userName := req.userName, channelId, clientId }

def toEstablishSession (req : Proto.EstablishSessionRequest) : Except Status EstablishSession := do
  let clientId ← parse texts.uuid req.userId "user_id"
  let channelId ← parse texts.uuid req.channelId "channel_id"
  let clientSockAddr ← tryOpt req.clientSock "client_sock"
  let clientIp ← parse texts.ip clientSockAddr.ip "client_sock.ip"
  match toPort clientSockAddr.port with
  | some clientPort => return { channelId, clientId, clientAddr := ⟨clientIp, clientPort⟩ }
  | none => throw ⟨.invalidArgument, "port out of range"⟩

end Grpc

/-- `VoiceServerGrpc`, called over a transport that changes nothing. -/
def grpc (texts : Texts) (server : VoiceServerImpl) : VoiceServerClient where
  openConnection request := do
    let req ← Grpc.toOpenConnection texts request
    let data ← (server.openConnection req).mapError Grpc.mapOpenConnectionError
    return Grpc.ofConnectionData texts data
  establishSession request := do
    let req ← Grpc.toEstablishSession texts request
    let response ← (server.establishSession req).mapError Grpc.mapEstablishSessionError
    return Grpc.ofSessionData response
  leave request := do
    let clientId ← Grpc.parse texts.uuid request.userId "user_id"
    let channelId ← Grpc.parse texts.uuid request.channelId "channel_id"
    (server.leave channelId clientId).mapError Grpc.mapLeaveError
  userStatus request := do
    let clientId ← Grpc.parse texts.uuid request.userId "user_id"
    let channelId ← Grpc.parse texts.uuid request.channelId "channel_id"
    let status ← (server.userStatus channelId clientId).mapError Grpc.mapStatusError
    return { status := some (Grpc.ofConnectionState status) }
  status request := do
    let channelId ← Grpc.parse texts.uuid request.channelId "channel_id"
    let peers ← (server.status channelId).mapError Grpc.mapStatusError
    return { info := peers.map (Grpc.ofPeer texts) }

end Voices.VoiceInstance
