import Mathlib.Algebra.Order.Ring.Nat
import Mathlib.Algebra.Order.Ring.Unbundled.Basic
import Mathlib.Data.List.Basic

/-!
# The wire format of protobuf

A reader takes the bytes that are left and yields what it read with the bytes
after it. It accepts every encoding that proto3 allows: varints that are longer
than they need to be, fields in any order and more than once, messages in several
parts, and fields that it does not know. The encoder writes each field once and
in its shortest form, and leaves out fields with their default value.

`Frugal` compares the two: each field that a message is merged with was at least
as long as what it adds to the encoding of the message.
-/

namespace Semantics.Protobuf

abbrev Bytes := List UInt8

section Varints

/-- Seven bits a byte, lowest first; all bytes but the last have their high bit set. -/
def encodeVarint (n : Nat) : Bytes :=
  if n < 128 then [n.toUInt8] else (n % 128 + 128).toUInt8 :: encodeVarint (n / 128)
termination_by n
decreasing_by omega

/-- The last byte that is allowed adds a single bit, so that the value fits 64 bits. -/
def decodeVarint : Nat → Bytes → Option (Nat × Bytes)
  | 0, _ => none
  | _ + 1, [] => none
  | left + 1, byte :: rest =>
    if byte < 128 then
      if left = 0 ∧ 1 < byte then none else some (byte.toNat, rest)
    else (decodeVarint left rest).map fun (high, rest) => (byte.toNat % 128 + 128 * high, rest)

def readVarint (bytes : Bytes) : Option (Nat × Bytes) := decodeVarint 10 bytes

theorem encodeVarint_small {n : Nat} (h : n < 128) : (encodeVarint n).length = 1 := by
  rw [encodeVarint, if_pos h]
  rfl

theorem encodeVarint_large {n : Nat} (h : ¬ n < 128) :
    (encodeVarint n).length = (encodeVarint (n / 128)).length + 1 := by
  rw [encodeVarint, if_neg h, List.length_cons]

theorem exists_length_encodeVarint (n : Nat) : ∃ k, (encodeVarint n).length = k + 1 := by
  by_cases h : n < 128
  · exact ⟨0, encodeVarint_small h⟩
  · exact ⟨_, encodeVarint_large h⟩

theorem length_encodeVarint_le_iff {n k : Nat} :
    (encodeVarint n).length ≤ k + 1 ↔ n < 128 ^ (k + 1) := by
  induction k generalizing n with
  | zero =>
    by_cases h : n < 128
    · rw [encodeVarint_small h]
      omega
    · obtain ⟨j, hj⟩ := exists_length_encodeVarint (n / 128)
      rw [encodeVarint_large h, hj]
      omega
  | succ k ih =>
    by_cases h : n < 128
    · have hLe : 128 ^ 1 ≤ 128 ^ (k + 1 + 1) := Nat.pow_le_pow_right (by decide) (by omega)
      rw [encodeVarint_small h]
      omega
    · rw [encodeVarint_large h, Nat.add_le_add_iff_right, ih, Nat.div_lt_iff_lt_mul (by decide),
        ← Nat.pow_succ]

theorem length_encodeVarint_mono {m n : Nat} (h : m ≤ n) :
    (encodeVarint m).length ≤ (encodeVarint n).length := by
  obtain ⟨k, hk⟩ := exists_length_encodeVarint n
  rw [hk]
  apply length_encodeVarint_le_iff.mpr
  exact Nat.lt_of_le_of_lt h (length_encodeVarint_le_iff.mp hk.le)

theorem length_encodeVarint_add_le (m n : Nat) :
    (encodeVarint (m + n)).length ≤ (encodeVarint m).length + (encodeVarint n).length := by
  obtain ⟨i, hi⟩ := exists_length_encodeVarint m
  obtain ⟨j, hj⟩ := exists_length_encodeVarint n
  have hm : m < 128 ^ (i + 1) := length_encodeVarint_le_iff.mp hi.le
  have hn : n < 128 ^ (j + 1) := length_encodeVarint_le_iff.mp hj.le
  have hTwo (k : Nat) : 2 ≤ 128 ^ (k + 1) :=
    Nat.le_trans (by decide) (Nat.pow_le_pow_right (by decide) (Nat.le_add_left 1 k))
  have hMul : 128 ^ (i + 1) + 128 ^ (j + 1) ≤ 128 ^ (i + 1) * 128 ^ (j + 1) :=
    add_le_mul (hTwo i) (hTwo j)
  rw [← Nat.pow_add] at hMul
  rw [hi, hj, ← Nat.add_assoc]
  apply length_encodeVarint_le_iff.mpr
  rw [show i + 1 + j + 1 = i + 1 + (j + 1) from Nat.add_assoc _ _ _]
  omega

/-- What is read as a varint was no shorter than its encoding. -/
theorem decodeVarint_length {left n : Nat} {bytes rest : Bytes}
    (h : decodeVarint left bytes = some (n, rest)) :
    (encodeVarint n).length + rest.length ≤ bytes.length := by
  induction left generalizing n bytes with
  | zero => cases h
  | succ left ih =>
    cases bytes with
    | nil => cases h
    | cons byte bytes =>
      rw [decodeVarint] at h
      split at h
      · rename_i hLast
        split at h
        · cases h
        · cases h
          rw [encodeVarint_small (UInt8.lt_iff_toNat_lt.mp hLast), List.length_cons]
          omega
      · obtain ⟨⟨high, rest'⟩, hHigh, hEq⟩ := Option.map_eq_some_iff.mp h
        cases hEq
        have hRest := ih hHigh
        rw [List.length_cons]
        by_cases hSmall : byte.toNat % 128 + 128 * high < 128
        · obtain ⟨k, hk⟩ := exists_length_encodeVarint high
          rw [encodeVarint_small hSmall]
          omega
        · have hDiv : (byte.toNat % 128 + 128 * high) / 128 = high := by omega
          rw [encodeVarint_large hSmall, hDiv]
          omega

theorem readVarint_length {n : Nat} {bytes rest : Bytes} (h : readVarint bytes = some (n, rest)) :
    (encodeVarint n).length + rest.length ≤ bytes.length :=
  decodeVarint_length h

end Varints

section Fields

inductive WireType where
  | varint
  | sixtyFourBit
  | lengthDelimited
  | startGroup
  | endGroup
  | thirtyTwoBit
  deriving DecidableEq

def WireType.toNat : WireType → Nat
  | varint => 0
  | sixtyFourBit => 1
  | lengthDelimited => 2
  | startGroup => 3
  | endGroup => 4
  | thirtyTwoBit => 5

def WireType.ofNat? : Nat → Option WireType
  | 0 => some varint
  | 1 => some sixtyFourBit
  | 2 => some lengthDelimited
  | 3 => some startGroup
  | 4 => some endGroup
  | 5 => some thirtyTwoBit
  | _ => none

/-- The number and the wire type of the field that follows. -/
def readKey (bytes : Bytes) : Option ((Nat × WireType) × Bytes) := do
  let (key, rest) ← readVarint bytes
  let wireType ← WireType.ofNat? (key % 8)
  if key < 2 ^ 32 ∧ 8 ≤ key then some ((key / 8, wireType), rest) else none

def advance (length : Nat) (bytes : Bytes) : Option Bytes :=
  if length ≤ bytes.length then some (bytes.drop length) else none

/-- The fields of a group up to its end; `fuel` bounds their number. -/
def skipGroup (skip : Nat → WireType → Bytes → Option Bytes) (tag : Nat) : Nat → Bytes → Option Bytes
  | 0, _ => none
  | fuel + 1, bytes => do
    let ((innerTag, innerWireType), rest) ← readKey bytes
    if innerWireType = .endGroup then
      if innerTag = tag then some rest else none
    else
      let rest ← skip innerTag innerWireType rest
      skipGroup skip tag fuel rest

/-- An unknown field. Groups may be nested up to the recursion limit of the decoder. -/
def skipField : Nat → Nat → WireType → Bytes → Option Bytes
  | 0, _, _, _ => none
  | depth + 1, tag, wireType, bytes =>
    match wireType with
    | .varint => (readVarint bytes).map Prod.snd
    | .sixtyFourBit => advance 8 bytes
    | .thirtyTwoBit => advance 4 bytes
    | .lengthDelimited => (readVarint bytes).bind fun (length, rest) => advance length rest
    | .startGroup => skipGroup (skipField depth) tag bytes.length bytes
    | .endGroup => none

def mergeUInt64 (wireType : WireType) (bytes : Bytes) : Option (UInt64 × Bytes) :=
  if wireType = .varint then (readVarint bytes).map fun (n, rest) => (n.toUInt64, rest) else none

/-- A varint of a 32-bit field is truncated. -/
def mergeUInt32 (wireType : WireType) (bytes : Bytes) : Option (UInt32 × Bytes) :=
  if wireType = .varint then (readVarint bytes).map fun (n, rest) => (n.toUInt32, rest) else none

def mergeBytes (wireType : WireType) (bytes : Bytes) : Option (Bytes × Bytes) :=
  if wireType = .lengthDelimited then
    (readVarint bytes).bind fun (length, rest) =>
      if length ≤ rest.length then some (rest.take length, rest.drop length) else none
  else none

def encodeKey (tag : Nat) (wireType : WireType) : Bytes := encodeVarint (8 * tag + wireType.toNat)

def encodeUInt64 (tag : Nat) (value : UInt64) : Bytes :=
  if value = 0 then [] else encodeKey tag .varint ++ encodeVarint value.toNat

def encodeUInt32 (tag : Nat) (value : UInt32) : Bytes :=
  if value = 0 then [] else encodeKey tag .varint ++ encodeVarint value.toNat

def encodeBytes (tag : Nat) (value : Bytes) : Bytes :=
  if value = [] then [] else encodeKey tag .lengthDelimited ++ encodeVarint value.length ++ value

def encodeMessage (tag : Nat) (encoded : Bytes) : Bytes :=
  encodeKey tag .lengthDelimited ++ encodeVarint encoded.length ++ encoded

theorem readKey_length {tag : Nat} {wireType : WireType} {bytes rest : Bytes}
    (h : readKey bytes = some ((tag, wireType), rest)) : rest.length + 1 ≤ bytes.length := by
  obtain ⟨⟨key, rest'⟩, hKey, h⟩ := Option.bind_eq_some_iff.mp h
  obtain ⟨wireType', _, h⟩ := Option.bind_eq_some_iff.mp h
  obtain ⟨k, hk⟩ := exists_length_encodeVarint key
  have hLength := readVarint_length hKey
  split at h
  · cases h
    omega
  · cases h

theorem advance_length {length : Nat} {bytes rest : Bytes} (h : advance length bytes = some rest) :
    rest.length + length = bytes.length := by
  unfold advance at h
  split at h
  · cases h
    rw [List.length_drop]
    omega
  · cases h

theorem skipGroup_length {skip : Nat → WireType → Bytes → Option Bytes} {tag fuel : Nat}
    {bytes rest : Bytes}
    (hSkip : ∀ tag wireType bytes rest, skip tag wireType bytes = some rest → rest.length ≤ bytes.length)
    (h : skipGroup skip tag fuel bytes = some rest) : rest.length ≤ bytes.length := by
  induction fuel generalizing bytes with
  | zero => cases h
  | succ fuel ih =>
    obtain ⟨⟨⟨innerTag, innerWireType⟩, inner⟩, hKey, h⟩ := Option.bind_eq_some_iff.mp h
    have hInner := readKey_length hKey
    dsimp only at h
    split at h
    · split at h
      · cases h
        omega
      · cases h
    · obtain ⟨skipped, hSkipped, h⟩ := Option.bind_eq_some_iff.mp h
      have hShorter := hSkip _ _ _ _ hSkipped
      have hRest := ih h
      omega

/-- The fuel is no limit: a field is at least as long as its key. -/
theorem skipGroup_fuel {skip : Nat → WireType → Bytes → Option Bytes} {tag fuel fuel' : Nat}
    {bytes : Bytes}
    (hSkip : ∀ tag wireType bytes rest, skip tag wireType bytes = some rest → rest.length ≤ bytes.length)
    (h : bytes.length ≤ fuel) (h' : bytes.length ≤ fuel') :
    skipGroup skip tag fuel bytes = skipGroup skip tag fuel' bytes := by
  have hNil (fuel : Nat) : skipGroup skip tag fuel [] = none := by cases fuel <;> rfl
  induction fuel generalizing fuel' bytes with
  | zero => rw [List.eq_nil_of_length_eq_zero (Nat.le_zero.mp h), hNil, hNil]
  | succ fuel ih =>
    cases fuel' with
    | zero => rw [List.eq_nil_of_length_eq_zero (Nat.le_zero.mp h'), hNil, hNil]
    | succ fuel' =>
      refine Option.bind_congr fun key hKey => ?_
      have hInner := readKey_length hKey
      dsimp only
      split
      · rfl
      · refine Option.bind_congr fun skipped hSkipped => ?_
        have hShorter := hSkip _ _ _ _ hSkipped
        exact ih (by omega) (by omega)

theorem skipField_length {depth tag : Nat} {wireType : WireType} {bytes rest : Bytes}
    (h : skipField depth tag wireType bytes = some rest) : rest.length ≤ bytes.length := by
  induction depth generalizing tag wireType bytes rest with
  | zero => cases h
  | succ depth ih =>
    cases wireType with
    | varint =>
      obtain ⟨⟨n, rest'⟩, hRead, rfl⟩ := Option.map_eq_some_iff.mp h
      have hLength := readVarint_length hRead
      dsimp only
      omega
    | sixtyFourBit => exact Nat.le.intro (advance_length h)
    | thirtyTwoBit => exact Nat.le.intro (advance_length h)
    | lengthDelimited =>
      obtain ⟨⟨length, rest'⟩, hRead, hAdvance⟩ := Option.bind_eq_some_iff.mp h
      have hLength := readVarint_length hRead
      have hRest := advance_length hAdvance
      omega
    | startGroup => exact skipGroup_length (fun _ _ _ _ => ih) h
    | endGroup => cases h

/-- The value that is read may be truncated. -/
theorem readVarint_mod_length {n : Nat} {bytes rest : Bytes} (m : Nat)
    (h : readVarint bytes = some (n, rest)) :
    (encodeVarint (n % m)).length + rest.length ≤ bytes.length := by
  have hLength := readVarint_length h
  have hMono := length_encodeVarint_mono (Nat.mod_le n m)
  omega

theorem mergeUInt64_length {wireType : WireType} {value : UInt64} {bytes rest : Bytes}
    (h : mergeUInt64 wireType bytes = some (value, rest)) :
    (encodeVarint value.toNat).length + rest.length ≤ bytes.length := by
  unfold mergeUInt64 at h
  split at h
  · obtain ⟨⟨n, rest'⟩, hRead, hEq⟩ := Option.map_eq_some_iff.mp h
    cases hEq
    exact readVarint_mod_length (2 ^ 64) hRead
  · cases h

theorem mergeUInt32_length {wireType : WireType} {value : UInt32} {bytes rest : Bytes}
    (h : mergeUInt32 wireType bytes = some (value, rest)) :
    (encodeVarint value.toNat).length + rest.length ≤ bytes.length := by
  unfold mergeUInt32 at h
  split at h
  · obtain ⟨⟨n, rest'⟩, hRead, hEq⟩ := Option.map_eq_some_iff.mp h
    cases hEq
    exact readVarint_mod_length (2 ^ 32) hRead
  · cases h

theorem mergeBytes_length {wireType : WireType} {value bytes rest : Bytes}
    (h : mergeBytes wireType bytes = some (value, rest)) :
    (encodeVarint value.length).length + value.length + rest.length ≤ bytes.length := by
  unfold mergeBytes at h
  split at h
  · obtain ⟨⟨length, rest'⟩, hRead, h⟩ := Option.bind_eq_some_iff.mp h
    have hLength := readVarint_length hRead
    dsimp only at h
    split at h
    · rename_i hLe
      cases h
      have hTake : (rest'.take length).length = length := by rw [List.length_take]; omega
      rw [hTake, List.length_drop]
      omega
    · cases h
  · cases h

theorem length_encodeKey {tag : Nat} (hTag : tag < 15) (wireType : WireType) :
    (encodeKey tag wireType).length = 1 := by
  refine encodeVarint_small ?_
  cases wireType <;> simp only [WireType.toNat] <;> omega

theorem length_optional_le {tag : Nat} (hTag : tag < 15) (wireType : WireType) (p : Prop) [Decidable p]
    (body : Bytes) : (if p then [] else encodeKey tag wireType ++ body).length ≤ body.length + 1 := by
  split
  · exact Nat.zero_le _
  · rw [List.length_append, length_encodeKey hTag]
    omega

/-- A field that was read is no shorter than it is encoded, where its key takes a byte. -/
theorem mergeUInt64_adds {wireType : WireType} {value : UInt64} {bytes rest : Bytes}
    (h : mergeUInt64 wireType bytes = some (value, rest)) {tag : Nat} (hTag : tag < 15) :
    rest.length ≤ bytes.length ∧ (encodeUInt64 tag value).length + rest.length ≤ bytes.length + 1 := by
  have hLength := mergeUInt64_length h
  have hField : (encodeUInt64 tag value).length ≤ (encodeVarint value.toNat).length + 1 :=
    length_optional_le hTag .varint _ _
  omega

theorem mergeUInt32_adds {wireType : WireType} {value : UInt32} {bytes rest : Bytes}
    (h : mergeUInt32 wireType bytes = some (value, rest)) {tag : Nat} (hTag : tag < 15) :
    rest.length ≤ bytes.length ∧ (encodeUInt32 tag value).length + rest.length ≤ bytes.length + 1 := by
  have hLength := mergeUInt32_length h
  have hField : (encodeUInt32 tag value).length ≤ (encodeVarint value.toNat).length + 1 :=
    length_optional_le hTag .varint _ _
  omega

theorem mergeBytes_adds {wireType : WireType} {value bytes rest : Bytes}
    (h : mergeBytes wireType bytes = some (value, rest)) {tag : Nat} (hTag : tag < 15) :
    rest.length ≤ bytes.length ∧ (encodeBytes tag value).length + rest.length ≤ bytes.length + 1 := by
  have hLength := mergeBytes_length h
  have hField := length_optional_le hTag .lengthDelimited (value = [])
    (encodeVarint value.length ++ value)
  rw [← List.append_assoc, List.length_append, ← encodeBytes] at hField
  omega

theorem length_encodeMessage {tag : Nat} (hTag : tag < 15) (encoded : Bytes) :
    (encodeMessage tag encoded).length =
      (encodeVarint encoded.length).length + encoded.length + 1 := by
  simp only [encodeMessage, List.length_append, length_encodeKey hTag]
  omega

theorem length_encodeBytes_congr (tag : Nat) {value value' : Bytes}
    (h : value.length = value'.length) :
    (encodeBytes tag value).length = (encodeBytes tag value').length := by
  have hNil : value = [] ↔ value' = [] := by
    rw [← List.length_eq_zero_iff, ← List.length_eq_zero_iff, h]
  by_cases hEmpty : value = []
  · rw [encodeBytes, encodeBytes, if_pos hEmpty, if_pos (hNil.mp hEmpty)]
  · rw [encodeBytes, encodeBytes, if_neg hEmpty, if_neg (hNil.not.mp hEmpty)]
    simp only [List.length_append, h]

theorem length_encodeMessage_congr (tag : Nat) {encoded encoded' : Bytes}
    (h : encoded.length = encoded'.length) :
    (encodeMessage tag encoded).length = (encodeMessage tag encoded').length := by
  simp only [encodeMessage, List.length_append, h]

end Fields

section Messages

variable {μ : Type} (mergeField : μ → Nat → WireType → Bytes → Option (μ × Bytes))

/-- Fields are merged until `limit` bytes are left; `fuel` bounds their number. -/
def mergeFields (limit : Nat) : Nat → μ → Bytes → Option (μ × Bytes)
  | fuel, msg, bytes =>
    if bytes.length ≤ limit then
      if bytes.length = limit then some (msg, bytes) else none
    else
      match fuel with
      | 0 => none
      | fuel + 1 => do
        let ((tag, wireType), rest) ← readKey bytes
        let (msg, rest) ← mergeField msg tag wireType rest
        mergeFields limit fuel msg rest

/-- A message is a field of another one: its length, and as many bytes of fields. -/
def mergeMessage (wireType : WireType) (msg : μ) (bytes : Bytes) : Option (μ × Bytes) :=
  if wireType = .lengthDelimited then
    (readVarint bytes).bind fun (length, rest) =>
      if length ≤ rest.length then
        mergeFields mergeField (rest.length - length) rest.length msg rest
      else none
  else none

def decodeMessage (msg : μ) (bytes : Bytes) : Option μ :=
  (mergeFields mergeField 0 bytes.length msg bytes).map Prod.fst

/-- With the byte of its key, a field is as long as what it adds to the encoding of a message. -/
def Frugal (encode : μ → Bytes) : Prop :=
  ∀ {msg tag wireType bytes msg' rest}, mergeField msg tag wireType bytes = some (msg', rest) →
    rest.length ≤ bytes.length ∧
      (encode msg').length + rest.length ≤ (encode msg).length + bytes.length + 1

variable {mergeField} {encode : μ → Bytes} {limit fuel : Nat} {msg msg' : μ} {bytes rest : Bytes}
  {wireType : WireType}

theorem mergeFields_done (h : bytes.length ≤ limit) : mergeFields mergeField limit fuel msg bytes =
    if bytes.length = limit then some (msg, bytes) else none := by
  cases fuel <;> rw [mergeFields, if_pos h]

theorem Frugal.mergeFields (hFrugal : Frugal mergeField encode)
    (h : mergeFields mergeField limit fuel msg bytes = some (msg', rest)) :
    rest.length = limit ∧ limit ≤ bytes.length ∧
      (encode msg').length + rest.length ≤ (encode msg).length + bytes.length := by
  induction fuel generalizing msg bytes with
  | zero =>
    rw [Protobuf.mergeFields] at h
    split at h
    · split at h
      · cases h
        omega
      · cases h
    · cases h
  | succ fuel ih =>
    rw [Protobuf.mergeFields] at h
    split at h
    · split at h
      · cases h
        omega
      · cases h
    · obtain ⟨⟨⟨tag, wireType⟩, field⟩, hKey, h⟩ := Option.bind_eq_some_iff.mp h
      obtain ⟨⟨merged, left⟩, hMerge, h⟩ := Option.bind_eq_some_iff.mp h
      have hField := readKey_length hKey
      obtain ⟨hLeft, hMerged⟩ := hFrugal hMerge
      obtain ⟨hRest, hLimit, hAdds⟩ := ih h
      omega

/-- The fuel is no limit: a field is at least as long as its key. -/
theorem Frugal.mergeFields_fuel (hFrugal : Frugal mergeField encode) {fuel' : Nat}
    (h : bytes.length ≤ fuel) (h' : bytes.length ≤ fuel') :
    Protobuf.mergeFields mergeField limit fuel msg bytes =
      Protobuf.mergeFields mergeField limit fuel' msg bytes := by
  induction fuel generalizing fuel' msg bytes with
  | zero =>
    have hDone : bytes.length ≤ limit := by omega
    rw [mergeFields_done hDone, mergeFields_done hDone]
  | succ fuel ih =>
    by_cases hDone : bytes.length ≤ limit
    · rw [mergeFields_done hDone, mergeFields_done hDone]
    · obtain ⟨fuel', rfl⟩ : ∃ n, fuel' = n + 1 := ⟨fuel' - 1, by omega⟩
      rw [Protobuf.mergeFields, Protobuf.mergeFields, if_neg hDone, if_neg hDone]
      refine Option.bind_congr fun key hKey => Option.bind_congr fun merged hMerge => ?_
      have hField : key.2.length + 1 ≤ bytes.length := readKey_length hKey
      obtain ⟨hLeft, _⟩ := hFrugal hMerge
      exact ih (by omega) (by omega)

theorem Frugal.mergeMessage (hFrugal : Frugal mergeField encode)
    (h : Protobuf.mergeMessage mergeField wireType msg bytes = some (msg', rest)) :
    ∃ length, (encode msg').length ≤ (encode msg).length + length ∧
      (encodeVarint length).length + length + rest.length ≤ bytes.length := by
  unfold Protobuf.mergeMessage at h
  split at h
  · obtain ⟨⟨length, inner⟩, hRead, h⟩ := Option.bind_eq_some_iff.mp h
    have hLength := readVarint_length hRead
    dsimp only at h
    split at h
    · obtain ⟨hRest, hLimit, hAdds⟩ := hFrugal.mergeFields h
      refine ⟨length, ?_, ?_⟩ <;> omega
    · cases h
  · cases h

/-- A message that is there already is merged into: the length of the whole takes no more bytes
than the lengths of the parts. Else a new one is started. -/
theorem Frugal.oneof (hFrugal : Frugal mergeField encode) (hEmpty : encode msg = []) {old : Option μ}
    (h : Protobuf.mergeMessage mergeField wireType (old.getD msg) bytes = some (msg', rest))
    {tag : Nat} (hTag : tag < 15) :
    rest.length ≤ bytes.length ∧ (encodeMessage tag (encode msg')).length + rest.length ≤
      (old.elim 0 fun old => (encodeMessage tag (encode old)).length) + bytes.length + 1 := by
  obtain ⟨length, hAdds, hBytes⟩ := hFrugal.mergeMessage h
  have hMono := length_encodeVarint_mono hAdds
  refine ⟨by omega, ?_⟩
  cases old with
  | none =>
    rw [Option.getD_none, hEmpty, List.length_nil, Nat.zero_add] at hAdds hMono
    rw [length_encodeMessage hTag, Option.elim_none]
    omega
  | some old =>
    have hSplit := length_encodeVarint_add_le (encode old).length length
    rw [Option.getD_some] at hAdds hMono
    rw [length_encodeMessage hTag, Option.elim_some, length_encodeMessage hTag]
    omega

/-- No encoding of a message is shorter than the one that the encoder writes. -/
theorem Frugal.decodeMessage (hFrugal : Frugal mergeField encode) (hEmpty : encode msg = [])
    (h : Protobuf.decodeMessage mergeField msg bytes = some msg') : (encode msg').length ≤ bytes.length := by
  obtain ⟨⟨last, rest⟩, hMerge, rfl⟩ := Option.map_eq_some_iff.mp h
  obtain ⟨_, _, hAdds⟩ := hFrugal.mergeFields hMerge
  rw [hEmpty, List.length_nil] at hAdds
  exact Nat.le_of_add_right_le (Nat.le_trans hAdds (Nat.zero_add _).le)

end Messages

end Semantics.Protobuf
