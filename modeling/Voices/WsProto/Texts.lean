import Mathlib.Logic.Equiv.List
import Mathlib.Tactic.DeriveEncodable
import Voices.Semantics.TextForm
import Voices.WsProto.Messages

/-!
# Texts of the messages

Forms that parse what they display, to run the control connection with. The first message of each
direction has its JSON text, and every other message a text that no JSON has.
-/

namespace Voices.WsProto

open Semantics VoiceServer

instance encodableUInt16 : Encodable UInt16 := .ofLeftInverse UInt16.toNat UInt16.ofNat fun _ => UInt16.ofNat_toNat

instance encodableUInt32 : Encodable UInt32 := .ofLeftInverse UInt32.toNat UInt32.ofNat fun _ => UInt32.ofNat_toNat

instance encodableUInt64 : Encodable UInt64 := .ofLeftInverse UInt64.toNat UInt64.ofNat fun _ => UInt64.ofNat_toNat

instance encodableBitVec (w : Nat) : Encodable (BitVec w) :=
  .ofLeftInverse BitVec.toNat (BitVec.ofNat w) fun x => by simp

instance encodableChar : Encodable Char := .ofLeftInverse Char.toNat Char.ofNat Char.ofNat_toNat

instance encodableString : Encodable String := .ofLeftInverse String.toList String.ofList fun _ => String.ofList_toList

deriving instance Encodable for IpAddr
deriving instance Encodable for Init
deriving instance Encodable for ServerAnnounce
deriving instance Encodable for ClientAnnounce
deriving instance Encodable for Keepalive
deriving instance Encodable for Join
deriving instance Encodable for Initialized
deriving instance Encodable for Present
deriving instance Encodable for Ready
deriving instance Encodable for JoinError
deriving instance Encodable for Left
deriving instance Encodable for ClientEvent
deriving instance Encodable for ServerEvent

/-- Every value has a number, and its text is that many marks. -/
def marks (α : Type) [Encodable α] (default : α) : TextForm α :=
  .tally Encodable.encode (fun n => (Encodable.decode n).getD default) fun a => by
    rw [Encodable.encodek, Option.getD_some]

def firstInit : ClientEvent := .init { userId := 1, name := "a" }

def firstInitText : String :=
  "\x7b\"type\":\"Init\",\"user_id\":\"00000000-0000-0000-0000-000000000001\",\"name\":\"a\"\x7d"

def firstInitialized : ServerEvent := .init { sessionId := 9 }

def firstInitializedText : String :=
  "\x7b\"type\":\"Init\",\"session_id\":\"00000000-0000-0000-0000-000000000009\"\x7d"

def clientText : TextForm ClientEvent := (marks ClientEvent .leave).withText firstInit firstInitText rfl

def serverText : TextForm ServerEvent :=
  (marks ServerEvent .disconnected).withText firstInitialized firstInitializedText rfl

end Voices.WsProto
