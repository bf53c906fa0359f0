import Mathlib.Data.List.Basic

/-!
# Authenticated encryption as an interface

Encryption and decryption are partial functions of a key, a nonce and a byte
string. `Lawful` is what a protocol relies on: decryption inverts encryption
under the same key and nonce, and succeeds on nothing else.
-/

namespace Semantics

universe u v

structure Aead (Key : Type u) (Nonce : Type v) where
  encrypt : Key → Nonce → List UInt8 → Option (List UInt8)
  decrypt : Key → Nonce → List UInt8 → Option (List UInt8)

structure Aead.Lawful {Key : Type u} {Nonce : Type v} (aead : Aead Key Nonce) : Prop where
  decrypt_of_encrypt : ∀ {key nonce plain cipher},
    aead.encrypt key nonce plain = some cipher → aead.decrypt key nonce cipher = some plain
  encrypt_of_decrypt : ∀ {key nonce plain cipher},
    aead.decrypt key nonce cipher = some plain → aead.encrypt key nonce plain = some cipher

/-- Encryption adds `overhead` bytes, which decryption takes away. -/
structure Aead.Expands {Key : Type u} {Nonce : Type v} (aead : Aead Key Nonce) (overhead : Nat) :
    Prop where
  encrypt_length : ∀ {key nonce plain cipher}, aead.encrypt key nonce plain = some cipher →
    cipher.length = plain.length + overhead
  decrypt_length : ∀ {key nonce plain cipher}, aead.decrypt key nonce cipher = some plain →
    cipher.length = plain.length + overhead

end Semantics
