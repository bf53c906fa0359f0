import Voices.VoiceServer.Proto

/-!
# The messages of the control connection

`ws-proto`: what a client and its gateway tell each other over the websocket.
-/

namespace Voices.WsProto

open VoiceServer

structure Init where
  userId : Uuid
  name : String
  deriving DecidableEq

structure ServerAnnounce where
  ip : IpAddr
  port : UInt16
  sourceId : UInt32
  deriving DecidableEq

structure ClientAnnounce where
  ip : IpAddr
  port : UInt16
  deriving DecidableEq

structure Keepalive where
  sentAt : UInt64
  deriving DecidableEq

structure Join where
  channelId : Uuid
  deriving DecidableEq

structure Initialized where
  sessionId : Uuid
  deriving DecidableEq

structure Present where
  user : String
  sourceId : UInt32
  deriving DecidableEq

/-- `cryptKey` is the key in base 64. -/
structure Ready where
  id : Uuid
  srcId : UInt32
  present : List Present
  cryptKey : String
  deriving DecidableEq

structure JoinError where
  roomId : Uuid
  deriving DecidableEq

structure Left where
  user : String
  sourceId : UInt32
  deriving DecidableEq

inductive ClientEvent where
  | init (init : Init)
  | keepalive (keepalive : Keepalive)
  | join (join : Join)
  | udpAnnounce (announce : ClientAnnounce)
  | leave
  | disconnect
  deriving DecidableEq

inductive ServerEvent where
  | init (initialized : Initialized)
  | keepalive (keepalive : Keepalive)
  | ready (ready : Ready)
  | joined (present : Present)
  | disconnected
  | left (left : Left)
  | udpAnnounce (announce : ServerAnnounce)
  | joinError (joinError : JoinError)
  deriving DecidableEq

end Voices.WsProto
