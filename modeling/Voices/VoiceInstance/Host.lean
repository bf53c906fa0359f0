import Voices.VoiceServer.Forwarder

/-!
# Voice hosts

`voice_instance`: what a gateway asks of a voice server, and the host that runs
in its own process and calls the server directly.
-/

namespace Voices.VoiceInstance

open VoiceServer

structure OpenConnection where
  userName : String
  channelId : Uuid
  clientId : Uuid
  deriving DecidableEq

structure ConnectionData where
  sock : SocketAddr
  sourceId : UInt32
  deriving DecidableEq

structure EstablishSession where
  channelId : Uuid
  clientId : Uuid
  clientAddr : SocketAddr
  deriving DecidableEq

structure SessionData where
  cryptKey : List UInt8
  deriving DecidableEq

inductive OpenConnectionError where
  | channelNotFound
  | noOpenPorts
  | other (error : String)
  deriving DecidableEq

inductive EstablishSessionError where
  | peerNotFound
  | channelNotFound
  | other (error : String)
  deriving DecidableEq

inductive LeaveError where
  | channelNotFound
  | peerNotFound
  deriving DecidableEq

inductive StatusError where
  | peerNotFound
  | channelNotFound
  | other (error : String)
  deriving DecidableEq

/-- The answers of a `VoiceServerImpl` to the requests of its hosts. -/
structure VoiceServerImpl where
  openConnection : OpenConnection → Except OpenConnectionError ConnectionData
  establishSession : EstablishSession → Except EstablishSessionError SessionData
  leave (channelId clientId : Uuid) : Except LeaveError Unit
  userStatus (channelId clientId : Uuid) : Except StatusError ConnectionState
  status (channelId : Uuid) : Except StatusError (List Peer)

/-- An error of any other kind keeps the text that is displayed. -/
inductive VoiceHostError where
  | notFound (what : String)
  | other (error : String)
  deriving DecidableEq

structure VoiceHost where
  openConnection : OpenConnection → Except VoiceHostError ConnectionData
  establishSession : EstablishSession → Except VoiceHostError SessionData
  leave (channelId clientId : Uuid) : Except VoiceHostError Unit
  userStatus (channelId clientId : Uuid) : Except VoiceHostError ConnectionState
  status (channelId : Uuid) : Except VoiceHostError (List Peer)

namespace VoiceHostError

def ofOpenConnectionError : OpenConnectionError → VoiceHostError
  | .channelNotFound => .notFound "channel"
  | .noOpenPorts => .other "failed to open connection"
  | .other error => .other error

def ofEstablishSessionError : EstablishSessionError → VoiceHostError
  | .peerNotFound => .notFound "peer"
  | .channelNotFound => .notFound "channel"
  | .other error => .other error

def ofLeaveError : LeaveError → VoiceHostError
  | .peerNotFound => .notFound "peer"
  | .channelNotFound => .notFound "channel"

def ofStatusError : StatusError → VoiceHostError
  | .peerNotFound => .notFound "peer"
  | .channelNotFound => .notFound "channel"
  | .other error => .other error

end VoiceHostError

/-- `IntegratedVoiceHost`. -/
def integrated (server : VoiceServerImpl) : VoiceHost where
  openConnection request := (server.openConnection request).mapError .ofOpenConnectionError
  establishSession request := (server.establishSession request).mapError .ofEstablishSessionError
  leave channelId clientId := (server.leave channelId clientId).mapError .ofLeaveError
  userStatus channelId clientId := (server.userStatus channelId clientId).mapError .ofStatusError
  status channelId := (server.status channelId).mapError .ofStatusError

/-- Two hosts tell a caller the same: the texts of other errors are only displayed. -/
def Agree {α : Type} : Except VoiceHostError α → Except VoiceHostError α → Prop
  | .ok a, .ok b => a = b
  | .error (.notFound what), .error (.notFound other) => what = other
  | .error (.other _), .error (.other _) => True
  | _, _ => False

end Voices.VoiceInstance
