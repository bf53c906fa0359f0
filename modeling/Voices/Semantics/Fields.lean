import Voices.Semantics.Protobuf

/-!
# Reading back what was encoded

The reader of a field undoes its encoder, whatever bytes follow. `Fields` says that some
bytes are fields that lead from one message to another: fields are put one after the
other, left out with their default value, and wrapped into a message of their own.
-/

namespace Semantics.Protobuf

section Varints

theorem toNat_toUInt8 {n : Nat} (h : n < 256) : n.toUInt8.toNat = n := by
  rw [Nat.toUInt8_eq, UInt8.toNat_ofNat']
  exact Nat.mod_eq_of_lt h

/-- The byte that ends a varint. -/
theorem decodeVarint_last {left n : Nat} (hSmall : n < 128) (hLast : left = 0 → n < 2) (rest : Bytes) :
    decodeVarint (left + 1) (n.toUInt8 :: rest) = some (n, rest) := by
  have hByte : n.toUInt8.toNat = n := toNat_toUInt8 (by omega)
  have hLow : n.toUInt8 < 128 := by
    rw [UInt8.lt_iff_toNat_lt, hByte]
    exact hSmall
  have hFits : ¬ (left = 0 ∧ 1 < n.toUInt8) := by
    rintro ⟨hLeft, hOne⟩
    have hOver : 1 < n.toUInt8.toNat := UInt8.lt_iff_toNat_lt.mp hOne
    have hTwo := hLast hLeft
    omega
  rw [decodeVarint, if_pos hLow, if_neg hFits, hByte]

/-- A byte that more bytes follow. -/
theorem decodeVarint_more (left n : Nat) (rest : Bytes) :
    decodeVarint (left + 1) ((n % 128 + 128).toUInt8 :: rest) =
      (decodeVarint left rest).map fun (high, rest) => (n % 128 + 128 * high, rest) := by
  have hByte : (n % 128 + 128).toUInt8.toNat = n % 128 + 128 := toNat_toUInt8 (by omega)
  have hHigh : ¬ (n % 128 + 128).toUInt8 < 128 := by
    intro hLow
    have hSmall : (n % 128 + 128).toUInt8.toNat < 128 := UInt8.lt_iff_toNat_lt.mp hLow
    omega
  have hLow : (n % 128 + 128) % 128 = n % 128 := by omega
  rw [decodeVarint, if_neg hHigh, hByte, hLow]

/-- With `left` more bytes allowed, the value has `7 * left + 1` bits. -/
theorem decodeVarint_encodeVarint {left n : Nat} (h : n < 2 * 128 ^ left) (rest : Bytes) :
    decodeVarint (left + 1) (encodeVarint n ++ rest) = some (n, rest) := by
  induction left generalizing n with
  | zero =>
    have hTwo : n < 2 := by simpa using h
    have hSmall : n < 128 := by omega
    rw [encodeVarint, if_pos hSmall, List.singleton_append]
    exact decodeVarint_last hSmall (fun _ => hTwo) rest
  | succ left ih =>
    by_cases hSmall : n < 128
    · rw [encodeVarint, if_pos hSmall, List.singleton_append]
      exact decodeVarint_last hSmall (fun hLeft => absurd hLeft (Nat.succ_ne_zero left)) rest
    · have hHigh : n / 128 < 2 * 128 ^ left := by
        rw [Nat.div_lt_iff_lt_mul (by decide), Nat.mul_assoc, ← Nat.pow_succ]
        exact h
      rw [encodeVarint, if_neg hSmall, List.cons_append, decodeVarint_more, ih hHigh,
        Option.map_some]
      dsimp only
      rw [Nat.mod_add_div]

theorem readVarint_encodeVarint {n : Nat} (h : n < 2 ^ 64) (rest : Bytes) :
    readVarint (encodeVarint n ++ rest) = some (n, rest) :=
  decodeVarint_encodeVarint (Nat.lt_of_lt_of_eq h (by decide)) rest

end Varints

section Keys

theorem WireType.ofNat?_toNat (wireType : WireType) : WireType.ofNat? wireType.toNat = some wireType := by
  cases wireType <;> rfl

theorem WireType.toNat_lt (wireType : WireType) : wireType.toNat < 8 := by
  cases wireType <;> decide

theorem readKey_encodeKey {tag : Nat} (hPos : 0 < tag) (hTag : tag < 2 ^ 29) (wireType : WireType)
    (rest : Bytes) : readKey (encodeKey tag wireType ++ rest) = some ((tag, wireType), rest) := by
  have hLow : wireType.toNat < 8 := wireType.toNat_lt
  have hKey : 8 * tag + wireType.toNat < 2 ^ 64 := by omega
  have hMod : (8 * tag + wireType.toNat) % 8 = wireType.toNat := by omega
  have hDiv : (8 * tag + wireType.toNat) / 8 = tag := by omega
  rw [readKey, encodeKey, readVarint_encodeVarint hKey]
  simp only [Option.bind_eq_bind, Option.bind_some, hMod, WireType.ofNat?_toNat, hDiv]
  rw [if_pos (by omega)]

theorem encodeKey_length_pos (tag : Nat) (wireType : WireType) : 0 < (encodeKey tag wireType).length := by
  obtain ⟨k, hk⟩ := exists_length_encodeVarint (8 * tag + wireType.toNat)
  rw [encodeKey, hk]
  exact Nat.succ_pos k

end Keys

section Readers

theorem mergeUInt64_encodeVarint (value : UInt64) (rest : Bytes) :
    mergeUInt64 .varint (encodeVarint value.toNat ++ rest) = some (value, rest) := by
  rw [mergeUInt64, if_pos rfl, readVarint_encodeVarint value.toNat_lt, Option.map_some]
  simp

theorem mergeUInt32_encodeVarint (value : UInt32) (rest : Bytes) :
    mergeUInt32 .varint (encodeVarint value.toNat ++ rest) = some (value, rest) := by
  have hWord : value.toNat < 2 ^ 64 := Nat.lt_trans value.toNat_lt (by decide)
  rw [mergeUInt32, if_pos rfl, readVarint_encodeVarint hWord, Option.map_some]
  simp

theorem mergeBytes_encodeVarint {value : Bytes} (h : value.length < 2 ^ 64) (rest : Bytes) :
    mergeBytes .lengthDelimited (encodeVarint value.length ++ (value ++ rest)) = some (value, rest) := by
  rw [mergeBytes, if_pos rfl, readVarint_encodeVarint h, Option.bind_some]
  simp

/-- A field of text: bytes that are UTF-8. -/
def mergeString (wireType : WireType) (bytes : Bytes) : Option (String × Bytes) :=
  (mergeBytes wireType bytes).bind fun (value, rest) =>
    (String.fromUTF8? ⟨value.toArray⟩).map fun text => (text, rest)

theorem loop_eq (bytes : ByteArray) (i : Nat) (read : Bytes) :
    ByteArray.toList.loop bytes i read = read.reverse ++ bytes.data.toList.drop i := by
  fun_induction ByteArray.toList.loop bytes i read with
  | case1 i read hMore ih =>
    have hLt : i < bytes.data.toList.length := hMore
    rw [ih, List.reverse_cons, List.append_assoc, List.singleton_append, List.drop_eq_getElem_cons hLt]
    congr 2
    simp [ByteArray.get!, hMore]
  | case2 i read hEnd =>
    have hLe : bytes.data.toList.length ≤ i := Nat.not_lt.mp hEnd
    rw [List.drop_eq_nil_of_le hLe, List.append_nil]

theorem toList_eq (bytes : ByteArray) : bytes.toList = bytes.data.toList := by
  rw [ByteArray.toList, loop_eq, List.reverse_nil, List.nil_append, List.drop_zero]

theorem fromUTF8_toUTF8 (text : String) : String.fromUTF8? ⟨text.toUTF8.toList.toArray⟩ = some text := by
  have hBytes : (⟨text.toUTF8.toList.toArray⟩ : ByteArray) = text.toByteArray := by
    rw [toList_eq, Array.toArray_toList]
    rfl
  rw [hBytes, String.fromUTF8?, dif_pos text.isValidUTF8]
  rfl

theorem length_toUTF8 (text : String) : text.toUTF8.toList.length = text.utf8ByteSize := by
  rw [toList_eq, Array.length_toList]
  rfl

theorem utf8_eq_nil_iff {text : String} : text.toUTF8.toList = [] ↔ text = "" := by
  rw [← List.length_eq_zero_iff, length_toUTF8, String.utf8ByteSize_eq_zero_iff]

theorem mergeString_encodeVarint {text : String} (h : text.utf8ByteSize < 2 ^ 64) (rest : Bytes) :
    mergeString .lengthDelimited
      (encodeVarint text.toUTF8.toList.length ++ (text.toUTF8.toList ++ rest)) = some (text, rest) := by
  have hLength : text.toUTF8.toList.length < 2 ^ 64 := by
    rw [length_toUTF8]
    exact h
  rw [mergeString, mergeBytes_encodeVarint hLength, Option.bind_some]
  dsimp only
  rw [fromUTF8_toUTF8, Option.map_some]

theorem length_le_encodeBytes (tag : Nat) (value : Bytes) : value.length ≤ (encodeBytes tag value).length := by
  rw [encodeBytes]
  split
  · rename_i hNil
    rw [hNil]
  · rw [List.length_append]
    omega

theorem length_le_encodeMessage (tag : Nat) (encoded : Bytes) :
    encoded.length ≤ (encodeMessage tag encoded).length := by
  rw [encodeMessage, List.length_append]
  omega

end Readers

section Messages

variable {μ : Type} {mergeField : μ → Nat → WireType → Bytes → Option (μ × Bytes)}

/-- `bytes` are fields, and `msg` merged with them is `msg'`. -/
def Fields (mergeField : μ → Nat → WireType → Bytes → Option (μ × Bytes)) (bytes : Bytes)
    (msg msg' : μ) : Prop :=
  ∃ k ≤ bytes.length, ∀ limit fuel rest, limit ≤ rest.length →
    mergeFields mergeField limit (k + fuel) msg (bytes ++ rest) =
      mergeFields mergeField limit fuel msg' rest

variable {msg msg' msg'' : μ} {encoded encoded' : Bytes} {tag : Nat}

theorem Fields.nil (msg : μ) : Fields mergeField [] msg msg :=
  ⟨0, Nat.le_refl 0, fun limit fuel rest _ => by rw [Nat.zero_add, List.nil_append]⟩

theorem Fields.append (h : Fields mergeField encoded msg msg')
    (h' : Fields mergeField encoded' msg' msg'') : Fields mergeField (encoded ++ encoded') msg msg'' := by
  obtain ⟨k, hLe, hFields⟩ := h
  obtain ⟨k', hLe', hFields'⟩ := h'
  refine ⟨k + k', ?_, ?_⟩
  · rw [List.length_append]
    exact Nat.add_le_add hLe hLe'
  · intro limit fuel rest hLimit
    have hMore : limit ≤ (encoded' ++ rest).length := by
      rw [List.length_append]
      omega
    rw [Nat.add_assoc, List.append_assoc, hFields limit (k' + fuel) (encoded' ++ rest) hMore]
    exact hFields' limit fuel rest hLimit

/-- A single field: its key, and the bytes that its reader takes. -/
theorem Fields.field {wireType : WireType} {body : Bytes} (hPos : 0 < tag) (hTag : tag < 2 ^ 29)
    (h : ∀ rest, mergeField msg tag wireType (body ++ rest) = some (msg', rest)) :
    Fields mergeField (encodeKey tag wireType ++ body) msg msg' := by
  have hKey := encodeKey_length_pos tag wireType
  refine ⟨1, ?_, ?_⟩
  · rw [List.length_append]
    omega
  · intro limit fuel rest hLimit
    have hMore : ¬ (encodeKey tag wireType ++ body ++ rest).length ≤ limit := by
      simp only [List.length_append]
      omega
    rw [Nat.add_comm 1 fuel, mergeFields, if_neg hMore, List.append_assoc,
      readKey_encodeKey hPos hTag]
    simp only [Option.bind_eq_bind, Option.bind_some, h]

/-- A field is left out where it has the value that the message has already. -/
theorem Fields.optional {p : Prop} [Decidable p] {wireType : WireType} {body : Bytes} (hPos : 0 < tag)
    (hTag : tag < 2 ^ 29) (hDefault : p → msg' = msg)
    (h : ∀ rest, mergeField msg tag wireType (body ++ rest) = some (msg', rest)) :
    Fields mergeField (if p then [] else encodeKey tag wireType ++ body) msg msg' := by
  split
  · rename_i hp
    rw [hDefault hp]
    exact .nil msg
  · exact .field hPos hTag h

theorem Fields.uint64 (set : UInt64 → μ) (hPos : 0 < tag) (hTag : tag < 2 ^ 29) (hDefault : set 0 = msg)
    (hMerge : ∀ bytes, mergeField msg tag .varint bytes =
      (mergeUInt64 .varint bytes).map fun (value, rest) => (set value, rest)) (value : UInt64) :
    Fields mergeField (encodeUInt64 tag value) msg (set value) := by
  refine .optional hPos hTag (fun hZero => hZero ▸ hDefault) fun rest => ?_
  rw [hMerge, mergeUInt64_encodeVarint, Option.map_some]

theorem Fields.uint32 (set : UInt32 → μ) (hPos : 0 < tag) (hTag : tag < 2 ^ 29) (hDefault : set 0 = msg)
    (hMerge : ∀ bytes, mergeField msg tag .varint bytes =
      (mergeUInt32 .varint bytes).map fun (value, rest) => (set value, rest)) (value : UInt32) :
    Fields mergeField (encodeUInt32 tag value) msg (set value) := by
  refine .optional hPos hTag (fun hZero => hZero ▸ hDefault) fun rest => ?_
  rw [hMerge, mergeUInt32_encodeVarint, Option.map_some]

theorem Fields.bytes (set : Bytes → μ) (hPos : 0 < tag) (hTag : tag < 2 ^ 29) (hDefault : set [] = msg)
    (hMerge : ∀ bytes, mergeField msg tag .lengthDelimited bytes =
      (mergeBytes .lengthDelimited bytes).map fun (value, rest) => (set value, rest)) {value : Bytes}
    (hLength : value.length < 2 ^ 64) : Fields mergeField (encodeBytes tag value) msg (set value) := by
  rw [encodeBytes, List.append_assoc]
  refine .optional hPos hTag (fun hNil => hNil ▸ hDefault) fun rest => ?_
  rw [hMerge, List.append_assoc, mergeBytes_encodeVarint hLength, Option.map_some]

theorem Fields.string (set : String → μ) (hPos : 0 < tag) (hTag : tag < 2 ^ 29) (hDefault : set "" = msg)
    (hMerge : ∀ bytes, mergeField msg tag .lengthDelimited bytes =
      (mergeString .lengthDelimited bytes).map fun (value, rest) => (set value, rest)) {value : String}
    (hLength : value.utf8ByteSize < 2 ^ 64) :
    Fields mergeField (encodeBytes tag value.toUTF8.toList) msg (set value) := by
  rw [encodeBytes, List.append_assoc]
  refine .optional hPos hTag (fun hNil => ?_) fun rest => ?_
  · rw [← hDefault, utf8_eq_nil_iff.mp hNil]
  · rw [hMerge, List.append_assoc, mergeString_encodeVarint hLength, Option.map_some]

/-- The fields of a message, read as one field of another message. -/
theorem Fields.mergeMessage (h : Fields mergeField encoded msg msg') (hLength : encoded.length < 2 ^ 64)
    (rest : Bytes) :
    Protobuf.mergeMessage mergeField .lengthDelimited msg
      (encodeVarint encoded.length ++ (encoded ++ rest)) = some (msg', rest) := by
  obtain ⟨k, hLe, hFields⟩ := h
  have hSplit : (encoded ++ rest).length = k + ((encoded ++ rest).length - k) := by
    rw [List.length_append]
    omega
  have hLimit : (encoded ++ rest).length - encoded.length = rest.length := by
    rw [List.length_append]
    omega
  rw [Protobuf.mergeMessage, if_pos rfl, readVarint_encodeVarint hLength, Option.bind_some]
  simp only [List.length_append, Nat.le_add_right, if_true]
  rw [List.length_append] at hSplit hLimit
  rw [hLimit, hSplit, hFields rest.length _ rest (Nat.le_refl _), mergeFields_done (Nat.le_refl _),
    if_pos rfl]

/-- A message in a field of another message, also where it is one of a `oneof`. -/
theorem Fields.message {ν : Type} {mergeInner : ν → Nat → WireType → Bytes → Option (ν × Bytes)}
    {inner inner' : ν} (set : ν → μ) (hPos : 0 < tag) (hTag : tag < 2 ^ 29)
    (hMerge : ∀ bytes, mergeField msg tag .lengthDelimited bytes =
      (Protobuf.mergeMessage mergeInner .lengthDelimited inner bytes).map fun (value, rest) => (set value, rest))
    (hInner : Fields mergeInner encoded inner inner') (hLength : encoded.length < 2 ^ 64) :
    Fields mergeField (encodeMessage tag encoded) msg (set inner') := by
  rw [encodeMessage, List.append_assoc]
  refine .field hPos hTag fun rest => ?_
  rw [hMerge, List.append_assoc, hInner.mergeMessage hLength, Option.map_some]

theorem Fields.decodeMessage (h : Fields mergeField encoded msg msg') :
    Protobuf.decodeMessage mergeField msg encoded = some msg' := by
  obtain ⟨k, hLe, hFields⟩ := h
  have hRead := hFields 0 (encoded.length - k) [] (Nat.le_refl 0)
  have hDone : ([] : Bytes).length ≤ 0 := Nat.le_refl 0
  rw [List.append_nil, Nat.add_sub_cancel' hLe, mergeFields_done hDone, if_pos List.length_nil] at hRead
  rw [Protobuf.decodeMessage, hRead, Option.map_some]

end Messages

end Semantics.Protobuf
