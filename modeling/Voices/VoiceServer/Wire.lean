import Voices.Semantics.Protobuf
import Voices.VoiceServer.Proto

/-!
# The encoding of the voice protocol

The code generated from `voice.proto`: how each message is merged with the fields of
a datagram and how it is encoded. The fields of a `oneof` share one place: a message of
the kind that is there already is merged into it, and one of another kind replaces it.
`UdpWithBuf` of `udp-proto` holds one buffer, for both directions.
-/

namespace Voices.VoiceServer

open Semantics.Protobuf

/-- The recursion limit of the decoder; the fields of a `oneof` are one level down. -/
def recursionLimit : Nat := 100

namespace Ping

def new : Ping := { seq := 0, recv := 0, sent := 0, sourceId := 0 }

def mergeField (ping : Ping) (tag : Nat) (wireType : WireType) (bytes : Bytes) : Option (Ping × Bytes) :=
  match tag with
  | 1 => (mergeUInt64 wireType bytes).map fun (seq, rest) => ({ ping with seq }, rest)
  | 2 => (mergeUInt64 wireType bytes).map fun (recv, rest) => ({ ping with recv }, rest)
  | 3 => (mergeUInt64 wireType bytes).map fun (sent, rest) => ({ ping with sent }, rest)
  | 4 => (mergeUInt32 wireType bytes).map fun (sourceId, rest) => ({ ping with sourceId }, rest)
  | _ => (skipField (recursionLimit - 1) tag wireType bytes).map fun rest => (ping, rest)

def encode (ping : Ping) : Bytes :=
  encodeUInt64 1 ping.seq ++ encodeUInt64 2 ping.recv ++ encodeUInt64 3 ping.sent ++
    encodeUInt32 4 ping.sourceId

end Ping

namespace Voice

def new : Voice := { sequence := 0, streamTime := 0, sourceId := 0, payload := [] }

def mergeField (voice : Voice) (tag : Nat) (wireType : WireType) (bytes : Bytes) :
    Option (Voice × Bytes) :=
  match tag with
  | 1 => (mergeUInt64 wireType bytes).map fun (sequence, rest) => ({ voice with sequence }, rest)
  | 2 => (mergeUInt64 wireType bytes).map fun (streamTime, rest) => ({ voice with streamTime }, rest)
  | 3 => (mergeUInt32 wireType bytes).map fun (sourceId, rest) => ({ voice with sourceId }, rest)
  | 4 => (mergeBytes wireType bytes).map fun (payload, rest) => ({ voice with payload }, rest)
  | _ => (skipField (recursionLimit - 1) tag wireType bytes).map fun rest => (voice, rest)

def encode (voice : Voice) : Bytes :=
  encodeUInt64 1 voice.sequence ++ encodeUInt64 2 voice.streamTime ++ encodeUInt32 3 voice.sourceId ++
    encodeBytes 4 voice.payload

end Voice

namespace IpDiscoveryRequest

def new : IpDiscoveryRequest := { uuid := [], sourceId := 0 }

def mergeField (disco : IpDiscoveryRequest) (tag : Nat) (wireType : WireType) (bytes : Bytes) :
    Option (IpDiscoveryRequest × Bytes) :=
  match tag with
  | 1 => (mergeBytes wireType bytes).map fun (uuid, rest) => ({ disco with uuid }, rest)
  | 2 => (mergeUInt32 wireType bytes).map fun (sourceId, rest) => ({ disco with sourceId }, rest)
  | _ => (skipField (recursionLimit - 1) tag wireType bytes).map fun rest => (disco, rest)

def encode (disco : IpDiscoveryRequest) : Bytes :=
  encodeBytes 1 disco.uuid ++ encodeUInt32 2 disco.sourceId

end IpDiscoveryRequest

namespace ClientMessage

def ping (msg : ClientMessage) : Option Ping :=
  match msg.payload with
  | some (.ping ping) => some ping
  | _ => none

def voice (msg : ClientMessage) : Option Voice :=
  match msg.payload with
  | some (.voice voice) => some voice
  | _ => none

def ipDisco (msg : ClientMessage) : Option IpDiscoveryRequest :=
  match msg.payload with
  | some (.ipDisco disco) => some disco
  | _ => none

def mergeField (msg : ClientMessage) (tag : Nat) (wireType : WireType) (bytes : Bytes) :
    Option (ClientMessage × Bytes) :=
  match tag with
  | 1 => (mergeMessage Ping.mergeField wireType (msg.ping.getD .new) bytes).map fun (ping, rest) =>
      (⟨some (.ping ping)⟩, rest)
  | 2 => (mergeMessage Voice.mergeField wireType (msg.voice.getD .new) bytes).map fun (voice, rest) =>
      (⟨some (.voice voice)⟩, rest)
  | 3 => (mergeMessage IpDiscoveryRequest.mergeField wireType (msg.ipDisco.getD .new) bytes).map
      fun (disco, rest) => (⟨some (.ipDisco disco)⟩, rest)
  | _ => (skipField recursionLimit tag wireType bytes).map fun rest => (msg, rest)

def decode (bytes : Bytes) : Option ClientMessage := decodeMessage mergeField ⟨none⟩ bytes

def encode (msg : ClientMessage) : Bytes :=
  match msg.payload with
  | none => []
  | some (.ping ping) => encodeMessage 1 ping.encode
  | some (.voice voice) => encodeMessage 2 voice.encode
  | some (.ipDisco disco) => encodeMessage 3 disco.encode

@[simp] theorem encode_ping (ping : Ping) : encode ⟨some (.ping ping)⟩ = encodeMessage 1 ping.encode := rfl
@[simp] theorem encode_voice (voice : Voice) :
    encode ⟨some (.voice voice)⟩ = encodeMessage 2 voice.encode := rfl
@[simp] theorem encode_ipDisco (disco : IpDiscoveryRequest) :
    encode ⟨some (.ipDisco disco)⟩ = encodeMessage 3 disco.encode := rfl

end ClientMessage

def Pong.encode (pong : Pong) : Bytes :=
  encodeUInt64 1 pong.seq ++ encodeUInt64 2 pong.sent ++ encodeUInt64 3 pong.received

def IpDiscoveryResponse.encode (disco : IpDiscoveryResponse) : Bytes :=
  encodeBytes 1 disco.ip.toUTF8.toList ++ encodeUInt32 2 disco.port

def ServerMessage.encode (msg : ServerMessage) : Bytes :=
  match msg.message with
  | none => []
  | some (.pong pong) => encodeMessage 1 pong.encode
  | some (.voice voice) => encodeMessage 2 voice.encode
  | some (.ipDisco disco) => encodeMessage 3 disco.encode

/-- A socket with a buffer of `bufSize` bytes. -/
structure UdpWithBuf where
  bufSize : Nat

inductive UdpError where
  | ioError
  | decodeError
  | encodeError
  deriving DecidableEq

namespace UdpWithBuf

/-- `UdpWithBuf::new`, with `DEFAULT_BUF_SIZE`. -/
def new : UdpWithBuf := ⟨1600⟩

/-- What does not fit into the buffer is cut off the datagram that is received. -/
def recvProtoFrom (udp : UdpWithBuf) (sender : SocketAddr) (datagram : Bytes) :
    Except UdpError (SocketAddr × ClientMessage) :=
  match ClientMessage.decode (datagram.take udp.bufSize) with
  | some msg => .ok (sender, msg)
  | none => .error .decodeError

/-- What is sent, and where. `message.encode` fails when the buffer is too small; `taken` is
whether the socket takes the datagram. -/
def sendTo (udp : UdpWithBuf) (message : ServerMessage) (target : SocketAddr) (taken : Bool) :
    Except UdpError (SocketAddr × Bytes) :=
  if message.encode.length ≤ udp.bufSize then
    if taken then .ok (target, message.encode) else .error .ioError
  else .error .encodeError

end UdpWithBuf

section Lengths

theorem Ping.frugal : Frugal Ping.mergeField Ping.encode := by
  intro ping tag wireType bytes ping' rest h
  unfold mergeField at h
  simp only [encode, List.length_append]
  split at h <;> obtain ⟨read, hRead, hEq⟩ := Option.map_eq_some_iff.mp h <;> cases hEq
  · have hAdds := mergeUInt64_adds hRead (show 1 < 15 by decide)
    dsimp only
    omega
  · have hAdds := mergeUInt64_adds hRead (show 2 < 15 by decide)
    dsimp only
    omega
  · have hAdds := mergeUInt64_adds hRead (show 3 < 15 by decide)
    dsimp only
    omega
  · have hAdds := mergeUInt32_adds hRead (show 4 < 15 by decide)
    dsimp only
    omega
  · have hLength := skipField_length hRead
    omega

theorem Voice.frugal : Frugal Voice.mergeField Voice.encode := by
  intro voice tag wireType bytes voice' rest h
  unfold mergeField at h
  simp only [encode, List.length_append]
  split at h <;> obtain ⟨read, hRead, hEq⟩ := Option.map_eq_some_iff.mp h <;> cases hEq
  · have hAdds := mergeUInt64_adds hRead (show 1 < 15 by decide)
    dsimp only
    omega
  · have hAdds := mergeUInt64_adds hRead (show 2 < 15 by decide)
    dsimp only
    omega
  · have hAdds := mergeUInt32_adds hRead (show 3 < 15 by decide)
    dsimp only
    omega
  · have hAdds := mergeBytes_adds hRead (show 4 < 15 by decide)
    dsimp only
    omega
  · have hLength := skipField_length hRead
    omega

theorem IpDiscoveryRequest.frugal : Frugal IpDiscoveryRequest.mergeField IpDiscoveryRequest.encode := by
  intro disco tag wireType bytes disco' rest h
  unfold mergeField at h
  simp only [encode, List.length_append]
  split at h <;> obtain ⟨read, hRead, hEq⟩ := Option.map_eq_some_iff.mp h <;> cases hEq
  · have hAdds := mergeBytes_adds hRead (show 1 < 15 by decide)
    dsimp only
    omega
  · have hAdds := mergeUInt32_adds hRead (show 2 < 15 by decide)
    dsimp only
    omega
  · have hLength := skipField_length hRead
    omega

theorem ClientMessage.le_encode (msg : ClientMessage) :
    (msg.ping.elim 0 fun ping => (encodeMessage 1 ping.encode).length) ≤ msg.encode.length ∧
      (msg.voice.elim 0 fun voice => (encodeMessage 2 voice.encode).length) ≤ msg.encode.length ∧
      (msg.ipDisco.elim 0 fun disco => (encodeMessage 3 disco.encode).length) ≤ msg.encode.length := by
  rcases msg with ⟨_ | _ | _ | _⟩ <;> simp [ping, voice, ipDisco]

theorem ClientMessage.frugal : Frugal ClientMessage.mergeField ClientMessage.encode := by
  intro msg tag wireType bytes msg' rest h
  obtain ⟨hPing, hVoice, hDisco⟩ := msg.le_encode
  unfold mergeField at h
  split at h <;> obtain ⟨read, hRead, hEq⟩ := Option.map_eq_some_iff.mp h <;> cases hEq
  · have hAdds := Ping.frugal.oneof rfl hRead (show 1 < 15 by decide)
    rw [encode_ping]
    omega
  · have hAdds := Voice.frugal.oneof rfl hRead (show 2 < 15 by decide)
    rw [encode_voice]
    omega
  · have hAdds := IpDiscoveryRequest.frugal.oneof rfl hRead (show 3 < 15 by decide)
    rw [encode_ipDisco]
    omega
  · have hLength := skipField_length hRead
    omega

/-- No datagram is shorter than the encoding of the message that it is decoded to. -/
theorem ClientMessage.decode_length {bytes : Bytes} {msg : ClientMessage}
    (h : ClientMessage.decode bytes = some msg) : msg.encode.length ≤ bytes.length :=
  ClientMessage.frugal.decodeMessage rfl h

/-- The decoder never runs out of fuel. -/
theorem ClientMessage.decode_eq {bytes : Bytes} {fuel : Nat} (h : bytes.length ≤ fuel) :
    ClientMessage.decode bytes = (mergeFields mergeField 0 fuel ⟨none⟩ bytes).map Prod.fst := by
  rw [decode, decodeMessage, ClientMessage.frugal.mergeFields_fuel (Nat.le_refl _) h]

/-- The encoding of a voice message depends on its payload only by the length of it. -/
theorem Voice.encode_length_congr (voice : Voice) {payload payload' : List UInt8}
    (h : payload.length = payload'.length) :
    (Voice.encode { voice with payload }).length =
      (Voice.encode { voice with payload := payload' }).length := by
  simp only [encode, List.length_append, length_encodeBytes_congr 4 h]

end Lengths

end Voices.VoiceServer
