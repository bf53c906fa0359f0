import Mathlib.Data.List.Basic
import Mathlib.Tactic.Ring

/-! # Big-endian byte strings of a fixed length -/

namespace Semantics.BigEndian

/-- The `n` low bytes of a number, the most significant one first. -/
def bytes : Nat → Nat → List UInt8
  | 0, _ => []
  | n + 1, x => bytes n (x / 256) ++ [UInt8.ofNat x]

@[simp] theorem bytes_length (n x : Nat) : (bytes n x).length = n := by
  induction n generalizing x with
  | zero => rfl
  | succ n ih => simp [bytes, ih]

theorem bytes_injective (n : Nat) {x y : Nat} (hx : x < 256 ^ n) (hy : y < 256 ^ n)
    (h : bytes n x = bytes n y) : x = y := by
  induction n generalizing x y with
  | zero => omega
  | succ n ih =>
    obtain ⟨hHigh, hLow⟩ := List.append_inj h (by simp)
    have hLow' : UInt8.ofNat x = UInt8.ofNat y := by simpa using hLow
    have hMod : x % 256 = y % 256 := by simpa using congrArg UInt8.toNat hLow'
    have hDiv : x / 256 = y / 256 := by
      apply ih _ _ hHigh
      · rw [Nat.div_lt_iff_lt_mul (by decide)]
        rwa [pow_succ] at hx
      · rw [Nat.div_lt_iff_lt_mul (by decide)]
        rwa [pow_succ] at hy
    omega

end Semantics.BigEndian
