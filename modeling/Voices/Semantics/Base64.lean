import Voices.Semantics.TextForm

/-!
# Base 64

The standard alphabet with padding. Three bytes are four digits; at the end
one byte is two digits and two pads, and two bytes three digits and a pad.
Decoding is strict: the bits that are left over in the last digit are zero.
-/

namespace Semantics.Base64

def alphabet : List Char := "ABCDEFGHIJKLMNOPQRSTUVWXYZabcdefghijklmnopqrstuvwxyz0123456789+/".toList

def digit (n : Nat) : Char := alphabet.getD (n % 64) '='

def value (c : Char) : Option Nat := alphabet.findIdx? (· == c)

theorem value_digit {n : Nat} (hLt : n < 64) : value (digit n) = some n := by
  have hAll : ∀ m : Fin 64, value (digit m) = some m.val := by decide +kernel
  exact hAll ⟨n, hLt⟩

theorem digit_ne_pad (n : Nat) : digit n ≠ '=' := by
  have hAll : ∀ m : Fin 64, digit m ≠ '=' := by decide +kernel
  have hMod : digit n = digit (n % 64) := by rw [digit, digit, Nat.mod_mod]
  rw [hMod]
  exact hAll ⟨n % 64, Nat.mod_lt _ (by decide)⟩

def encode : List UInt8 → List Char
  | x :: y :: z :: rest =>
    let n := x.toNat * 65536 + y.toNat * 256 + z.toNat
    digit (n / 262144) :: digit (n / 4096 % 64) :: digit (n / 64 % 64) :: digit (n % 64) :: encode rest
  | [x, y] =>
    let n := x.toNat * 1024 + y.toNat * 4
    [digit (n / 4096), digit (n / 64 % 64), digit (n % 64), '=']
  | [x] =>
    let n := x.toNat * 16
    [digit (n / 64), digit (n % 64), '=', '=']
  | [] => []

def bytes (n : Nat) : List UInt8 := [UInt8.ofNat (n / 65536), UInt8.ofNat (n / 256), UInt8.ofNat n]

/-- The last four characters, of which the fourth is a pad. -/
def decodeLast (a b c : Char) : Option (List UInt8) := do
  let a ← value a
  let b ← value b
  if c = '=' then
    if b % 16 = 0 then some [UInt8.ofNat ((a * 64 + b) / 16)] else none
  else
    let c ← value c
    let n := a * 4096 + b * 64 + c
    if c % 4 = 0 then some [UInt8.ofNat (n / 1024), UInt8.ofNat (n / 4)] else none

def decode : List Char → Option (List UInt8)
  | a :: b :: c :: d :: rest =>
    if d = '=' then if rest.isEmpty then decodeLast a b c else none
    else do
      let a ← value a
      let b ← value b
      let c ← value c
      let d ← value d
      let more ← decode rest
      some (bytes (a * 262144 + b * 4096 + c * 64 + d) ++ more)
  | [] => some []
  | _ => none

theorem ofNat_eq_of_mod {x : UInt8} {n : Nat} (h : n % 256 = x.toNat) : UInt8.ofNat n = x := by
  apply UInt8.toNat_inj.mp
  rw [UInt8.toNat_ofNat', h]

theorem decode_encode (l : List UInt8) : decode (encode l) = some l := by
  induction l using encode.induct with
  | case1 x y z rest ih =>
    have hx := x.toNat_lt
    have hy := y.toNat_lt
    have hz := z.toNat_lt
    simp only [encode, decode, digit_ne_pad, if_false]
    rw [value_digit (by omega), value_digit (by omega), value_digit (by omega), value_digit (by omega), ih]
    simp only [Option.bind_eq_bind, Option.bind_some, bytes, List.cons_append, List.nil_append]
    rw [ofNat_eq_of_mod (x := x) (by omega), ofNat_eq_of_mod (x := y) (by omega),
      ofNat_eq_of_mod (x := z) (by omega)]
  | case2 x y =>
    have hx := x.toNat_lt
    have hy := y.toNat_lt
    simp only [encode, decode, decodeLast, digit_ne_pad, if_true, if_false, List.isEmpty_nil]
    rw [value_digit (by omega), value_digit (by omega), value_digit (by omega)]
    simp only [Option.bind_eq_bind, Option.bind_some]
    rw [if_pos (by omega), ofNat_eq_of_mod (x := x) (by omega), ofNat_eq_of_mod (x := y) (by omega)]
  | case3 x =>
    have hx := x.toNat_lt
    simp only [encode, decode, decodeLast, if_true, List.isEmpty_nil]
    rw [value_digit (by omega), value_digit (by omega)]
    simp only [Option.bind_eq_bind, Option.bind_some]
    rw [if_pos (by omega), ofNat_eq_of_mod (x := x) (by omega)]
  | case4 => rfl

/-- The text of a row of bytes, which parses to what it was made of. -/
def standard : TextForm (List UInt8) where
  display l := String.ofList (encode l)
  parse text := decode text.toList
  parse_display l := by rw [String.toList_ofList, decode_encode]

end Semantics.Base64
