import Mathlib.Data.List.Nodup
import Voices.VoiceServer.Crypto

/-!
# The sending loop of the client

`udp_tx` encrypts each recorded chunk under the next sequence number and the
next stream time, both from a random start and with wrap-around. It ends when
the cipher or the socket fails.
-/

namespace Voices.Client

open VoiceServer Semantics

/-- A chunk as `voice_recv` yields it, and whether its datagram could be sent; else the loop ends. -/
structure Chunk where
  voice : List UInt8
  sendOk : Bool

/-- What `udp_tx` encrypts, each chunk with the key and the nonce that the cipher gets for it. -/
def udpTx (aead : Aead Key Nonce) (key : Key) (mute : Bool) (sourceId : UInt32)
    (sequence streamTime : UInt64) : List Chunk → List Encryption
  | [] => []
  | chunk :: rest =>
    if mute then udpTx aead key mute sourceId sequence streamTime rest
    else
      let voice : Voice := { sequence, streamTime, sourceId, payload := chunk.voice }
      match voice.encrypt aead key with
      | none => []
      | some use =>
        use ::
          if chunk.sendOk then udpTx aead key mute sourceId (sequence + 1) (streamTime + 960) rest
          else []

section Loop

variable {aead : Aead Key Nonce} {key : Key} {mute : Bool} {sourceId : UInt32}
  {sequence streamTime : UInt64} {chunks : List Chunk} {use : Encryption}

/-- What the loop encrypts is a message of its own, counted from the start. -/
theorem mem_udpTx (h : use ∈ udpTx aead key mute sourceId sequence streamTime chunks) :
    use.voice.encrypt aead key = some use ∧
      ∃ i < chunks.length, use.voice.sequence = sequence + UInt64.ofNat i := by
  induction chunks generalizing sequence streamTime with
  | nil => cases h
  | cons chunk rest ih =>
    rw [udpTx] at h
    split at h
    · obtain ⟨hUse, i, hLt, hEq⟩ := ih h
      exact ⟨hUse, i, Nat.lt_succ_of_lt hLt, hEq⟩
    · dsimp only at h
      split at h
      · cases h
      · rename_i first hEncrypt
        obtain ⟨_, hVoice, _⟩ := Voice.encrypt_eq_some hEncrypt
        rcases List.mem_cons.mp h with rfl | hRest
        · rw [hVoice]
          exact ⟨hEncrypt, 0, Nat.succ_pos _, by simp⟩
        · split at hRest
          · obtain ⟨hUse, i, hLt, hEq⟩ := ih hRest
            refine ⟨hUse, i + 1, Nat.succ_lt_succ hLt, ?_⟩
            rw [hEq, UInt64.add_assoc, UInt64.ofNat_add, UInt64.add_comm (UInt64.ofNat i)]
            rfl
          · cases hRest

theorem udpTx_sequence_nodup (hLength : chunks.length ≤ 2 ^ 64) :
    ((udpTx aead key mute sourceId sequence streamTime chunks).map fun use =>
      use.voice.sequence).Nodup := by
  induction chunks generalizing sequence streamTime with
  | nil => exact List.nodup_nil
  | cons chunk rest ih =>
    have hRest : rest.length ≤ 2 ^ 64 := Nat.le_of_lt hLength
    rw [udpTx]
    split
    · exact ih hRest
    · dsimp only
      split
      · exact List.nodup_nil
      · rename_i first hEncrypt
        obtain ⟨_, hVoice, _⟩ := Voice.encrypt_eq_some hEncrypt
        rw [List.map_cons, List.nodup_cons, hVoice]
        split
        · refine ⟨?_, ih hRest⟩
          intro hMem
          obtain ⟨use, hUse, hEq⟩ := List.mem_map.mp hMem
          obtain ⟨_, i, hLt, hSequence⟩ := mem_udpTx hUse
          have hNat : sequence.toNat = (sequence + 1 + UInt64.ofNat i).toNat :=
            congrArg UInt64.toNat (hEq.symm.trans hSequence)
          have hBound : sequence.toNat < 2 ^ 64 := sequence.toNat_lt
          have hShort : i + 1 < 2 ^ 64 := Nat.lt_of_lt_of_le (Nat.succ_lt_succ hLt) hLength
          simp only [UInt64.toNat_add, UInt64.toNat_ofNat', UInt64.reduceToNat] at hNat
          omega
        · exact ⟨List.not_mem_nil, List.nodup_nil⟩

end Loop

end Voices.Client
