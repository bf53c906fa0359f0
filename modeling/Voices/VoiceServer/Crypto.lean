import Voices.Semantics.Aead
import Voices.Semantics.BigEndian
import Voices.VoiceServer.Proto

/-!
# Encryption of voice payloads

`VoiceCrypto for XSalsa20Poly1305`: the nonce of a payload is made of the
sequence number and the stream time of the message that carries it.
-/

namespace Voices.VoiceServer

open Semantics

abbrev Key := List UInt8
abbrev Nonce := List UInt8

/-- Eight bytes of the sequence number, eight of the stream time, eight zeros. -/
def voiceNonce (sequence streamTime : UInt64) : Nonce :=
  BigEndian.bytes 8 sequence.toNat ++ BigEndian.bytes 8 streamTime.toNat ++ List.replicate 8 0

theorem voiceNonce_inj {sequence streamTime sequence' streamTime' : UInt64} :
    voiceNonce sequence streamTime = voiceNonce sequence' streamTime' ↔
      sequence = sequence' ∧ streamTime = streamTime' := by
  constructor
  · intro h
    obtain ⟨hPrefix, _⟩ := List.append_inj h (by simp)
    obtain ⟨hSequence, hStream⟩ := List.append_inj hPrefix (by simp)
    exact ⟨UInt64.toNat_inj.mp (BigEndian.bytes_injective 8 sequence.toNat_lt sequence'.toNat_lt hSequence),
      UInt64.toNat_inj.mp (BigEndian.bytes_injective 8 streamTime.toNat_lt streamTime'.toNat_lt hStream)⟩
  · rintro ⟨rfl, rfl⟩
    rfl

def decryptVoice (aead : Aead Key Nonce) (key : Key) (voice : Voice) : Option (List UInt8) :=
  aead.decrypt key (voiceNonce voice.sequence voice.streamTime) voice.payload

/-- One use of the cipher to encrypt: the key and the nonce that it got, the message whose payload it
got, and what it made of it. -/
structure Encryption where
  key : Key
  nonce : Nonce
  voice : Voice
  cipher : List UInt8
  deriving DecidableEq

def Voice.encrypt (aead : Aead Key Nonce) (key : Key) (voice : Voice) : Option Encryption :=
  let nonce := voiceNonce voice.sequence voice.streamTime
  (aead.encrypt key nonce voice.payload).map fun cipher => { key, nonce, voice, cipher }

def encryptVoice (aead : Aead Key Nonce) (key : Key) (voice : Voice) : Option (List UInt8) :=
  (voice.encrypt aead key).map Encryption.cipher

theorem encryptVoice_eq (aead : Aead Key Nonce) (key : Key) (voice : Voice) :
    encryptVoice aead key voice =
      aead.encrypt key (voiceNonce voice.sequence voice.streamTime) voice.payload := by
  rw [encryptVoice, Voice.encrypt, Option.map_map]
  exact Option.map_id' ..

section Encrypt

variable {aead : Aead Key Nonce} {key : Key} {voice : Voice} {use : Encryption}

theorem Voice.encrypt_eq_some (h : voice.encrypt aead key = some use) :
    use.key = key ∧ use.voice = voice ∧ use.nonce = voiceNonce voice.sequence voice.streamTime ∧
      aead.encrypt use.key use.nonce use.voice.payload = some use.cipher := by
  obtain ⟨cipher, hCipher, rfl⟩ := Option.map_eq_some_iff.mp h
  exact ⟨rfl, rfl, rfl, hCipher⟩

theorem Voice.encryptVoice_of_encrypt (h : voice.encrypt aead key = some use) :
    encryptVoice aead key voice = some use.cipher := by
  rw [encryptVoice, h, Option.map_some]

theorem exists_encrypt {payload : List UInt8} (h : encryptVoice aead key voice = some payload) :
    ∃ use, voice.encrypt aead key = some use ∧ use.cipher = payload :=
  Option.map_eq_some_iff.mp h

theorem decryptVoice_of_encryptVoice (hLawful : aead.Lawful) {payload : List UInt8}
    (h : encryptVoice aead key voice = some payload) :
    decryptVoice aead key { voice with payload } = some voice.payload :=
  hLawful.decrypt_of_encrypt (encryptVoice_eq aead key voice ▸ h)

end Encrypt

/-- A cipher that only tags what it is given, to run the server with. -/
def tagged : Aead Key Nonce where
  encrypt key nonce plain := some (key ++ nonce ++ plain)
  decrypt key nonce cipher :=
    if cipher.take (key ++ nonce).length = key ++ nonce
    then some (cipher.drop (key ++ nonce).length) else none

theorem tagged_lawful : tagged.Lawful where
  decrypt_of_encrypt := by
    intro key nonce plain cipher h
    cases h
    simp only [tagged, List.take_left, List.drop_left, if_true]
  encrypt_of_decrypt := by
    intro key nonce plain cipher h
    simp only [tagged] at h
    split at h
    · rename_i hTag
      cases h
      have hJoin := List.take_append_drop (key ++ nonce).length cipher
      rw [hTag] at hJoin
      exact congrArg some hJoin
    · cases h

end Voices.VoiceServer
