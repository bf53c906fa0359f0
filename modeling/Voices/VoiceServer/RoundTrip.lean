import Voices.Semantics.Fields
import Voices.VoiceServer.Wire

/-!
# What one socket sends, the other receives

The client's end of the socket: it encodes a `ClientMessage` and decodes a `ServerMessage`, in a
buffer of the same size as the server's. Every message is decoded from its encoding, in both
directions.
-/

namespace Voices.VoiceServer

open Semantics.Protobuf

namespace Pong

def new : Pong := { seq := 0, sent := 0, received := 0 }

def mergeField (pong : Pong) (tag : Nat) (wireType : WireType) (bytes : Bytes) : Option (Pong × Bytes) :=
  match tag with
  | 1 => (mergeUInt64 wireType bytes).map fun (seq, rest) => ({ pong with seq }, rest)
  | 2 => (mergeUInt64 wireType bytes).map fun (sent, rest) => ({ pong with sent }, rest)
  | 3 => (mergeUInt64 wireType bytes).map fun (received, rest) => ({ pong with received }, rest)
  | _ => (skipField (recursionLimit - 1) tag wireType bytes).map fun rest => (pong, rest)

end Pong

namespace IpDiscoveryResponse

def new : IpDiscoveryResponse := { ip := "", port := 0 }

def mergeField (disco : IpDiscoveryResponse) (tag : Nat) (wireType : WireType) (bytes : Bytes) :
    Option (IpDiscoveryResponse × Bytes) :=
  match tag with
  | 1 => (mergeString wireType bytes).map fun (ip, rest) => ({ disco with ip }, rest)
  | 2 => (mergeUInt32 wireType bytes).map fun (port, rest) => ({ disco with port }, rest)
  | _ => (skipField (recursionLimit - 1) tag wireType bytes).map fun rest => (disco, rest)

end IpDiscoveryResponse

namespace ServerMessage

def pongOrNew (msg : ServerMessage) : Pong :=
  match msg.message with
  | some (.pong pong) => pong
  | _ => .new

def voiceOrNew (msg : ServerMessage) : Voice :=
  match msg.message with
  | some (.voice voice) => voice
  | _ => .new

def ipDiscoOrNew (msg : ServerMessage) : IpDiscoveryResponse :=
  match msg.message with
  | some (.ipDisco disco) => disco
  | _ => .new

def mergeField (msg : ServerMessage) (tag : Nat) (wireType : WireType) (bytes : Bytes) :
    Option (ServerMessage × Bytes) :=
  match tag with
  | 1 => (mergeMessage Pong.mergeField wireType msg.pongOrNew bytes).map fun (pong, rest) =>
      (.pong pong, rest)
  | 2 => (mergeMessage Voice.mergeField wireType msg.voiceOrNew bytes).map fun (voice, rest) =>
      (.voice voice, rest)
  | 3 => (mergeMessage IpDiscoveryResponse.mergeField wireType msg.ipDiscoOrNew bytes).map
      fun (disco, rest) => (.ipDisco disco, rest)
  | _ => (skipField recursionLimit tag wireType bytes).map fun rest => (msg, rest)

def decode (bytes : Bytes) : Option ServerMessage := decodeMessage mergeField ⟨none⟩ bytes

end ServerMessage

namespace UdpWithBuf

/-- `UdpWithBuf::send` of a client; `taken` is whether the socket takes the datagram. -/
def send (udp : UdpWithBuf) (message : ClientMessage) (taken : Bool) : Except UdpError Bytes :=
  if message.encode.length ≤ udp.bufSize then
    if taken then .ok message.encode else .error .ioError
  else .error .encodeError

/-- `UdpWithBuf::recv` of a client. -/
def recv (udp : UdpWithBuf) (datagram : Bytes) : Except UdpError ServerMessage :=
  match ServerMessage.decode (datagram.take udp.bufSize) with
  | some msg => .ok msg
  | none => .error .decodeError

end UdpWithBuf

section Fields

namespace Ping

theorem fields (ping : Ping) : Fields mergeField ping.encode new ping := by
  obtain ⟨seq, recv, sent, sourceId⟩ := ping
  have hSeq : Fields mergeField (encodeUInt64 1 seq) new { new with seq } :=
    .uint64 (fun seq => { new with seq }) (by decide) (by decide) rfl (fun _ => rfl) seq
  have hRecv : Fields mergeField (encodeUInt64 2 recv) { new with seq } { new with seq, recv } :=
    .uint64 (fun recv => { new with seq, recv }) (by decide) (by decide) rfl (fun _ => rfl) recv
  have hSent : Fields mergeField (encodeUInt64 3 sent) { new with seq, recv } { new with seq, recv, sent } :=
    .uint64 (fun sent => { new with seq, recv, sent }) (by decide) (by decide) rfl (fun _ => rfl) sent
  have hSource : Fields mergeField (encodeUInt32 4 sourceId) { new with seq, recv, sent }
      { seq, recv, sent, sourceId } :=
    .uint32 (Ping.mk seq recv sent) (by decide) (by decide) rfl (fun _ => rfl) sourceId
  exact ((hSeq.append hRecv).append hSent).append hSource

end Ping

namespace Voice

theorem fields (voice : Voice) (hPayload : voice.payload.length < 2 ^ 64) :
    Fields mergeField voice.encode new voice := by
  obtain ⟨sequence, streamTime, sourceId, payload⟩ := voice
  have hSequence : Fields mergeField (encodeUInt64 1 sequence) new { new with sequence } :=
    .uint64 (fun sequence => { new with sequence }) (by decide) (by decide) rfl (fun _ => rfl) sequence
  have hTime : Fields mergeField (encodeUInt64 2 streamTime) { new with sequence }
      { new with sequence, streamTime } :=
    .uint64 (fun streamTime => { new with sequence, streamTime }) (by decide) (by decide) rfl
      (fun _ => rfl) streamTime
  have hSource : Fields mergeField (encodeUInt32 3 sourceId) { new with sequence, streamTime }
      { new with sequence, streamTime, sourceId } :=
    .uint32 (fun sourceId => { new with sequence, streamTime, sourceId }) (by decide) (by decide) rfl
      (fun _ => rfl) sourceId
  have hLast : Fields mergeField (encodeBytes 4 payload) { new with sequence, streamTime, sourceId }
      { sequence, streamTime, sourceId, payload } :=
    .bytes (Voice.mk sequence streamTime sourceId) (by decide) (by decide) rfl (fun _ => rfl) hPayload
  exact ((hSequence.append hTime).append hSource).append hLast

theorem length_payload_le (voice : Voice) : voice.payload.length ≤ voice.encode.length := by
  have hPayload := length_le_encodeBytes 4 voice.payload
  rw [encode, List.length_append]
  omega

end Voice

namespace IpDiscoveryRequest

theorem fields (disco : IpDiscoveryRequest) (hUuid : disco.uuid.length < 2 ^ 64) :
    Fields mergeField disco.encode new disco := by
  obtain ⟨uuid, sourceId⟩ := disco
  have hFirst : Fields mergeField (encodeBytes 1 uuid) new { new with uuid } :=
    .bytes (fun uuid => { new with uuid }) (by decide) (by decide) rfl (fun _ => rfl) hUuid
  have hSource : Fields mergeField (encodeUInt32 2 sourceId) { new with uuid } { uuid, sourceId } :=
    .uint32 (IpDiscoveryRequest.mk uuid) (by decide) (by decide) rfl (fun _ => rfl) sourceId
  exact hFirst.append hSource

theorem length_uuid_le (disco : IpDiscoveryRequest) : disco.uuid.length ≤ disco.encode.length := by
  have hUuid := length_le_encodeBytes 1 disco.uuid
  rw [encode, List.length_append]
  omega

end IpDiscoveryRequest

namespace Pong

theorem fields (pong : Pong) : Fields mergeField pong.encode new pong := by
  obtain ⟨seq, sent, received⟩ := pong
  have hSeq : Fields mergeField (encodeUInt64 1 seq) new { new with seq } :=
    .uint64 (fun seq => { new with seq }) (by decide) (by decide) rfl (fun _ => rfl) seq
  have hSent : Fields mergeField (encodeUInt64 2 sent) { new with seq } { new with seq, sent } :=
    .uint64 (fun sent => { new with seq, sent }) (by decide) (by decide) rfl (fun _ => rfl) sent
  have hReceived : Fields mergeField (encodeUInt64 3 received) { new with seq, sent }
      { seq, sent, received } :=
    .uint64 (Pong.mk seq sent) (by decide) (by decide) rfl (fun _ => rfl) received
  exact (hSeq.append hSent).append hReceived

end Pong

namespace IpDiscoveryResponse

theorem fields (disco : IpDiscoveryResponse) (hIp : disco.ip.utf8ByteSize < 2 ^ 64) :
    Fields mergeField disco.encode new disco := by
  obtain ⟨ip, port⟩ := disco
  have hFirst : Fields mergeField (encodeBytes 1 ip.toUTF8.toList) new { new with ip } :=
    .string (fun ip => { new with ip }) (by decide) (by decide) rfl (fun _ => rfl) hIp
  have hPort : Fields mergeField (encodeUInt32 2 port) { new with ip } { ip, port } :=
    .uint32 (IpDiscoveryResponse.mk ip) (by decide) (by decide) rfl (fun _ => rfl) port
  exact hFirst.append hPort

theorem utf8ByteSize_ip_le (disco : IpDiscoveryResponse) :
    disco.ip.utf8ByteSize ≤ disco.encode.length := by
  have hIp := length_le_encodeBytes 1 disco.ip.toUTF8.toList
  rw [length_toUTF8] at hIp
  rw [encode, List.length_append]
  omega

end IpDiscoveryResponse

namespace ClientMessage

/-- A message that is not too long for its length is decoded from its encoding. -/
theorem decode_encode {msg : ClientMessage} (h : msg.encode.length < 2 ^ 64) : decode msg.encode = some msg := by
  apply Fields.decodeMessage
  obtain ⟨_ | ping | voice | disco⟩ := msg
  · exact .nil _
  · have hPing : ping.encode.length < 2 ^ 64 := Nat.lt_of_le_of_lt (length_le_encodeMessage 1 _) h
    exact .message (fun ping => ClientMessage.mk (some (.ping ping))) (by decide) (by decide) (fun _ => rfl) ping.fields hPing
  · have hVoice : voice.encode.length < 2 ^ 64 := Nat.lt_of_le_of_lt (length_le_encodeMessage 2 _) h
    exact .message (fun voice => ClientMessage.mk (some (.voice voice))) (by decide) (by decide) (fun _ => rfl)
      (voice.fields (Nat.lt_of_le_of_lt voice.length_payload_le hVoice)) hVoice
  · have hDisco : disco.encode.length < 2 ^ 64 := Nat.lt_of_le_of_lt (length_le_encodeMessage 3 _) h
    exact .message (fun disco => ClientMessage.mk (some (.ipDisco disco))) (by decide) (by decide) (fun _ => rfl)
      (disco.fields (Nat.lt_of_le_of_lt disco.length_uuid_le hDisco)) hDisco

end ClientMessage

namespace ServerMessage

theorem decode_encode {msg : ServerMessage} (h : msg.encode.length < 2 ^ 64) : decode msg.encode = some msg := by
  apply Fields.decodeMessage
  obtain ⟨_ | pong | voice | disco⟩ := msg
  · exact .nil _
  · have hPong : pong.encode.length < 2 ^ 64 := Nat.lt_of_le_of_lt (length_le_encodeMessage 1 _) h
    exact .message ServerMessage.pong (by decide) (by decide) (fun _ => rfl) pong.fields hPong
  · have hVoice : voice.encode.length < 2 ^ 64 := Nat.lt_of_le_of_lt (length_le_encodeMessage 2 _) h
    exact .message ServerMessage.voice (by decide) (by decide) (fun _ => rfl)
      (voice.fields (Nat.lt_of_le_of_lt voice.length_payload_le hVoice)) hVoice
  · have hDisco : disco.encode.length < 2 ^ 64 := Nat.lt_of_le_of_lt (length_le_encodeMessage 3 _) h
    exact .message ServerMessage.ipDisco (by decide) (by decide) (fun _ => rfl)
      (disco.fields (Nat.lt_of_le_of_lt disco.utf8ByteSize_ip_le hDisco)) hDisco

end ServerMessage

end Fields

namespace UdpWithBuf

variable {udp : UdpWithBuf} {taken : Bool} {datagram : Bytes}

theorem send_eq_ok {message : ClientMessage} (h : udp.send message taken = .ok datagram) :
    datagram = message.encode ∧ message.encode.length ≤ udp.bufSize := by
  unfold send at h
  split at h
  · rename_i hFits
    split at h
    · cases h
      exact ⟨rfl, hFits⟩
    · cases h
  · cases h

theorem sendTo_eq_ok {message : ServerMessage} {target addr : SocketAddr}
    (h : udp.sendTo message target taken = .ok (addr, datagram)) :
    addr = target ∧ datagram = message.encode ∧ message.encode.length ≤ udp.bufSize := by
  unfold sendTo at h
  split at h
  · rename_i hFits
    split at h
    · cases h
      exact ⟨rfl, rfl, hFits⟩
    · cases h
  · cases h

theorem recvProtoFrom_eq_ok {sender : SocketAddr} {message : ClientMessage}
    (h : udp.recvProtoFrom sender datagram = .ok (sender, message)) :
    ClientMessage.decode (datagram.take udp.bufSize) = some message := by
  unfold recvProtoFrom at h
  split at h
  · rename_i hDecode
    cases h
    exact hDecode
  · cases h

theorem recvProtoFrom_encode (sender : SocketAddr) {message : ClientMessage}
    (h : message.encode.length ≤ new.bufSize) :
    new.recvProtoFrom sender message.encode = .ok (sender, message) := by
  have hLength : message.encode.length < 2 ^ 64 := Nat.lt_of_le_of_lt h (by decide)
  rw [recvProtoFrom, List.take_of_length_le h, ClientMessage.decode_encode hLength]

theorem recv_encode {message : ServerMessage} (h : message.encode.length ≤ new.bufSize) :
    new.recv message.encode = .ok message := by
  have hLength : message.encode.length < 2 ^ 64 := Nat.lt_of_le_of_lt h (by decide)
  rw [recv, List.take_of_length_le h, ServerMessage.decode_encode hLength]

end UdpWithBuf

/-- What the socket of a client sends comes to the server as it was, and what the socket of the server
sends to the client. A datagram that was encoded otherwise is decoded to a message that is encoded in
no more bytes, and decoded from them again. -/
theorem datagrams_round_trip :
    (∀ (message : ClientMessage) (taken : Bool) (sender : SocketAddr) (datagram : Bytes),
      UdpWithBuf.new.send message taken = .ok datagram →
        UdpWithBuf.new.recvProtoFrom sender datagram = .ok (sender, message)) ∧
    (∀ (message : ServerMessage) (target : SocketAddr) (taken : Bool) (addr : SocketAddr) (datagram : Bytes),
      UdpWithBuf.new.sendTo message target taken = .ok (addr, datagram) →
        addr = target ∧ UdpWithBuf.new.recv datagram = .ok message) ∧
    (∀ (sender : SocketAddr) (datagram : Bytes) (message : ClientMessage),
      UdpWithBuf.new.recvProtoFrom sender datagram = .ok (sender, message) →
        message.encode.length ≤ datagram.length ∧
          UdpWithBuf.new.recvProtoFrom sender message.encode = .ok (sender, message)) := by
  refine ⟨?_, ?_, ?_⟩
  · intro message taken sender datagram hSend
    obtain ⟨rfl, hFits⟩ := UdpWithBuf.send_eq_ok hSend
    exact UdpWithBuf.recvProtoFrom_encode sender hFits
  · intro message target taken addr datagram hSend
    obtain ⟨rfl, rfl, hFits⟩ := UdpWithBuf.sendTo_eq_ok hSend
    exact ⟨rfl, UdpWithBuf.recv_encode hFits⟩
  · intro sender datagram message hRecv
    have hDecode := UdpWithBuf.recvProtoFrom_eq_ok hRecv
    have hLength := ClientMessage.decode_length hDecode
    rw [List.length_take] at hLength
    exact ⟨Nat.le_trans hLength (Nat.min_le_right _ _),
      UdpWithBuf.recvProtoFrom_encode sender (Nat.le_trans hLength (Nat.min_le_left _ _))⟩

def spoken : ClientMessage :=
  ⟨some (.voice { sequence := 300, streamTime := 960, sourceId := 7, payload := [1, 2] })⟩

theorem datagrams_round_trip_spoken :
    UdpWithBuf.new.recvProtoFrom ⟨.v4 1, 9⟩
        [0x12, 0x0c, 0x08, 0xac, 0x02, 0x10, 0xc0, 0x07, 0x18, 0x07, 0x22, 0x02, 1, 2] =
      .ok (⟨.v4 1, 9⟩, spoken) := by
  refine datagrams_round_trip.1 spoken true ⟨.v4 1, 9⟩ _ ?_
  have hEncode : spoken.encode =
      [0x12, 0x0c, 0x08, 0xac, 0x02, 0x10, 0xc0, 0x07, 0x18, 0x07, 0x22, 0x02, 1, 2] := by
    simp [spoken, ClientMessage.encode, Voice.encode, encodeMessage, encodeUInt64, encodeUInt32,
      encodeBytes, encodeKey, encodeVarint, WireType.toNat]
  simp [UdpWithBuf.send, UdpWithBuf.new, hEncode]

end Voices.VoiceServer
