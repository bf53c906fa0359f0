import Mathlib.Algebra.Group.Nat.Defs
import Mathlib.Data.List.Basic

/-!
# Addresses and the datagrams of the voice protocol

The messages of `voice.proto` and the socket addresses they travel between.
Field names follow the message definitions. A `oneof` that is not set is
`none`: an empty datagram decodes to a `ClientMessage` without payload.
-/

namespace Voices.VoiceServer

/-- A uuid is compared byte by byte, that is as a big-endian number. -/
abbrev Uuid := BitVec 128

inductive IpAddr where
  | v4 (ip : BitVec 32)
  | v6 (ip : BitVec 128)
  deriving DecidableEq

structure SocketAddr where
  ip : IpAddr
  port : UInt16
  deriving DecidableEq

def toIpv6Mapped (ip : BitVec 32) : BitVec 128 := 0xffff#96 ++ ip

namespace IpAddr

def dotted (ip : Nat) : String :=
  ".".intercalate ([24, 16, 8, 0].map fun shift => toString (ip / 2 ^ shift % 256))

def segments (ip : Nat) : List Nat := [112, 96, 80, 64, 48, 32, 16, 0].map fun shift => ip / 2 ^ shift % 65536

def hex (segments : List Nat) : String :=
  ":".intercalate (segments.map fun segment => String.ofList (Nat.toDigits 16 segment))

def zeros : List Nat → Nat
  | 0 :: rest => zeros rest + 1
  | _ => 0

/-- Start and length of the first longest run of zero segments. -/
def longestZeros (segments : List Nat) : Nat × Nat :=
  (List.range segments.length).foldl (fun best start =>
    let length := zeros (segments.drop start)
    if best.2 < length then (start, length) else best) (0, 0)

/-- The text of an address as `std` displays it: dotted for version four, and
for version six with the first longest run of zero segments left out. -/
def toString : IpAddr → String
  | v4 ip => dotted ip.toNat
  | v6 ip =>
    if ip = toIpv6Mapped (ip.setWidth 32) then "::ffff:" ++ dotted (ip.setWidth 32).toNat
    else
      let parts := segments ip.toNat
      let (start, length) := longestZeros parts
      if 1 < length then hex (parts.take start) ++ "::" ++ hex (parts.drop (start + length))
      else hex parts

end IpAddr

structure IpDiscoveryRequest where
  uuid : List UInt8
  sourceId : UInt32
  deriving DecidableEq

structure IpDiscoveryResponse where
  ip : String
  port : UInt32
  deriving DecidableEq

structure Voice where
  sequence : UInt64
  streamTime : UInt64
  sourceId : UInt32
  payload : List UInt8
  deriving DecidableEq

structure Ping where
  seq : UInt64
  recv : UInt64
  sent : UInt64
  sourceId : UInt32
  deriving DecidableEq

structure Pong where
  seq : UInt64
  sent : UInt64
  received : UInt64
  deriving DecidableEq

inductive ClientPayload where
  | ping (ping : Ping)
  | voice (voice : Voice)
  | ipDisco (disco : IpDiscoveryRequest)
  deriving DecidableEq

structure ClientMessage where
  payload : Option ClientPayload
  deriving DecidableEq

inductive ServerPayload where
  | pong (pong : Pong)
  | voice (voice : Voice)
  | ipDisco (disco : IpDiscoveryResponse)
  deriving DecidableEq

structure ServerMessage where
  message : Option ServerPayload
  deriving DecidableEq

def ServerMessage.pong (pong : Pong) : ServerMessage := ⟨some (.pong pong)⟩
def ServerMessage.voice (voice : Voice) : ServerMessage := ⟨some (.voice voice)⟩
def ServerMessage.ipDisco (disco : IpDiscoveryResponse) : ServerMessage := ⟨some (.ipDisco disco)⟩

/-- `Conn::same_addr`: equal ports, and equal addresses once version four is mapped. -/
def sameAddr (l r : SocketAddr) : Bool :=
  l.port == r.port &&
    match l.ip, r.ip with
    | .v4 l, .v4 r => l == r
    | .v4 l, .v6 r => toIpv6Mapped l == r
    | .v6 l, .v4 r => l == toIpv6Mapped r
    | .v6 l, .v6 r => l == r

end Voices.VoiceServer
