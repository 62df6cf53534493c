import AzureInit.Kvp.Record

/-! The record codec on whole pool files. A stored record is its 2560 bytes;
its decoded key and value ignore everything after a field's first NUL. -/

set_option autoImplicit false

namespace AzureInit.Kvp

open Foundation

theorem recordSize_pos : 0 < recordSize := by decide

/-- One stored record, byte for byte. -/
abbrev RawRecord := List.Vector UInt8 recordSize

@[simp] theorem length_zeroPadded (width : Nat) (bytes : List UInt8) :
    (zeroPadded width bytes).length = width := by
  simp only [zeroPadded, List.length_append, List.length_take, List.length_replicate]
  omega

@[simp] theorem length_encodeRecord (key value : Text) :
    (encodeRecord key value).length = recordSize := by
  simp [encodeRecord, recordSize]

/-- The stored form of a key and a value. -/
def RawRecord.encode (key value : Text) : RawRecord :=
  ⟨encodeRecord key value, length_encodeRecord key value⟩

/-- The key and value a stored record decodes to. -/
def RawRecord.decode (record : RawRecord) : Except IoError (Text × Text) :=
  decodeRecord record.toList

@[simp] theorem RawRecord.toList_encode (key value : Text) :
    (RawRecord.encode key value).toList = encodeRecord key value := rfl

theorem valueField_inside (value : Text) :
    wireMaxKeyBytes + (zeroPadded wireMaxValueBytes (Utf8.encode value)).length ≤
      recordSize := by
  rw [length_zeroPadded]
  exact Nat.le_refl _

/-- The stored form with its value field overwritten. -/
def RawRecord.setValue (record : RawRecord) (value : Text) : RawRecord :=
  Blocks.spliceBlock record wireMaxKeyBytes
    (zeroPadded wireMaxValueBytes (Utf8.encode value)) (valueField_inside value)

/-! ## Validation -/

theorem validateKey_eq_ok_iff {key : Text} {max : Nat} :
    validateKey key max = .ok () ↔
      key ≠ [] ∧ '\x00' ∉ key ∧ Utf8.byteLength key ≤ max := by
  unfold validateKey
  rw [← Utf8.nul_mem_encode_iff]
  by_cases empty : key = [] <;> by_cases nul : (0 : UInt8) ∈ Utf8.encode key <;>
    by_cases long : max < Utf8.byteLength key <;>
    (simp [empty, nul, long, bind, Except.bind, pure, Except.pure, throw, throwThe,
      MonadExceptOf.throw]; try omega)

theorem validateValue_eq_ok_iff {value : Text} {max : Nat} :
    validateValue value max = .ok () ↔
      '\x00' ∉ value ∧ Utf8.byteLength value ≤ max := by
  unfold validateValue
  rw [← Utf8.nul_mem_encode_iff]
  by_cases nul : (0 : UInt8) ∈ Utf8.encode value <;>
    by_cases long : max < Utf8.byteLength value <;>
    (simp [nul, long, bind, Except.bind, pure, Except.pure, throw, throwThe,
      MonadExceptOf.throw]; try omega)

/-! ## Fields -/

private theorem take_findIdx_zero (bytes : List UInt8) :
    bytes.take (bytes.findIdx (· == 0)) = bytes.takeWhile (· != 0) := by
  induction bytes with
  | nil => rfl
  | cons head tail ih =>
      by_cases zero : head = 0
      · simp [zero, List.findIdx_cons]
      · simp [zero, List.findIdx_cons, beq_eq_false_iff_ne.mpr zero, ih]

theorem decodeField_eq_ok_iff {bytes : List UInt8} {text : Text} :
    decodeField bytes = .ok text ↔ Utf8.encode text = bytes.takeWhile (· != 0) := by
  rw [decodeField, take_findIdx_zero, ← Utf8.decode?_eq_some_iff]
  cases Utf8.decode? (bytes.takeWhile (· != 0)) <;> simp

/-- A NUL-free text that fits its field is read back, also at the full width. -/
theorem decodeField_zeroPadded {text : Text} {width : Nat} (nulFree : '\x00' ∉ text)
    (fits : Utf8.byteLength text ≤ width) :
    decodeField (zeroPadded width (Utf8.encode text)) = .ok text := by
  have noZero : ∀ byte ∈ Utf8.encode text, (byte != 0) = true := by
    intro byte member
    simp only [bne_iff_ne, ne_eq]
    rintro rfl
    exact nulFree (Utf8.nul_mem_encode_iff.mp member)
  rw [decodeField_eq_ok_iff, zeroPadded,
    List.take_of_length_le (by simpa using fits), List.takeWhile_append_of_pos noZero]
  cases width - (Utf8.encode text).length <;> simp [List.replicate_succ]

/-! ## Records -/

theorem decodeRecord_eq {data : List UInt8} (size : data.length = recordSize) :
    decodeRecord data = (do
      let key ← decodeField (data.take wireMaxKeyBytes)
      let value ← decodeField (data.drop wireMaxKeyBytes)
      return (key, value)) := by
  simp [decodeRecord, size, List.splitAt_eq]

theorem RawRecord.decode_eq_ok_iff {record : RawRecord} {key value : Text} :
    record.decode = .ok (key, value) ↔
      decodeField (record.toList.take wireMaxKeyBytes) = .ok key ∧
        decodeField (record.toList.drop wireMaxKeyBytes) = .ok value := by
  rw [RawRecord.decode, decodeRecord_eq record.toList_length]
  cases decodeField (record.toList.take wireMaxKeyBytes) <;>
    cases decodeField (record.toList.drop wireMaxKeyBytes) <;>
    simp [bind, Except.bind, pure, Except.pure]

theorem decodeRecord_eq_ok_iff {data : List UInt8} {key value : Text} :
    decodeRecord data = .ok (key, value) ↔ data.length = recordSize ∧
      decodeField (data.take wireMaxKeyBytes) = .ok key ∧
        decodeField (data.drop wireMaxKeyBytes) = .ok value := by
  by_cases size : data.length = recordSize
  · have record : RawRecord.decode ⟨data, size⟩ = .ok (key, value) ↔ _ :=
      RawRecord.decode_eq_ok_iff
    rw [and_iff_right size]
    exact record
  · unfold decodeRecord
    rw [if_pos size]
    constructor
    · intro accepted
      cases accepted
    · exact fun accepted => absurd accepted.1 size

/-- Records accepted by the store decode to what was stored. -/
theorem RawRecord.decode_encode {key value : Text} (keyNulFree : '\x00' ∉ key)
    (keyFits : Utf8.byteLength key ≤ wireMaxKeyBytes) (valueNulFree : '\x00' ∉ value)
    (valueFits : Utf8.byteLength value ≤ wireMaxValueBytes) :
    (RawRecord.encode key value).decode = .ok (key, value) := by
  rw [RawRecord.decode_eq_ok_iff, RawRecord.toList_encode, encodeRecord,
    List.take_left' (length_zeroPadded _ _), List.drop_left' (length_zeroPadded _ _)]
  exact ⟨decodeField_zeroPadded keyNulFree keyFits,
    decodeField_zeroPadded valueNulFree valueFits⟩

theorem RawRecord.toList_setValue (record : RawRecord) (value : Text) :
    (record.setValue value).toList =
      record.toList.take wireMaxKeyBytes ++
        zeroPadded wireMaxValueBytes (Utf8.encode value) := by
  rw [RawRecord.setValue, Blocks.toList_spliceBlock, Blocks.splice, length_zeroPadded]
  rw [List.drop_of_length_le (by rw [record.toList_length]; exact Nat.le_refl _),
    List.append_nil]

/-- Overwriting the value field keeps the key. -/
theorem RawRecord.decode_setValue {record : RawRecord} {key old value : Text}
    (decoded : record.decode = .ok (key, old)) (nulFree : '\x00' ∉ value)
    (fits : Utf8.byteLength value ≤ wireMaxValueBytes) :
    (record.setValue value).decode = .ok (key, value) := by
  have keyLength : (record.toList.take wireMaxKeyBytes).length = wireMaxKeyBytes := by
    rw [List.length_take, record.toList_length]
    decide
  rw [RawRecord.decode_eq_ok_iff] at decoded
  rw [RawRecord.decode_eq_ok_iff, RawRecord.toList_setValue, List.take_left' keyLength,
    List.drop_left' keyLength]
  exact ⟨decoded.1, decodeField_zeroPadded nulFree fits⟩

theorem PoolMode.maxKeySize_le (mode : PoolMode) : mode.maxKeySize ≤ wireMaxKeyBytes := by
  cases mode <;> decide

theorem PoolMode.maxValueSize_le (mode : PoolMode) :
    mode.maxValueSize ≤ wireMaxValueBytes := by
  cases mode <;> decide

/-! ## Framing -/

theorem recordCountFromLen_eq_ok_iff {len count : Nat} :
    recordCountFromLen len = .ok count ↔ len = count * recordSize := by
  unfold recordCountFromLen
  have divided := Nat.div_add_mod len recordSize
  split
  · rename_i refused
    simp only [reduceCtorEq, false_iff]
    rintro rfl
    exact refused.2 (Nat.mul_mod_left _ _)
  · rename_i accepted
    have aligned : len % recordSize = 0 := by
      rcases Nat.eq_zero_or_pos len with rfl | positive
      · simp
      · by_contra misaligned
        exact accepted ⟨positive, misaligned⟩
    rw [Except.ok.injEq]
    constructor
    · rintro rfl
      rw [aligned, Nat.add_zero, Nat.mul_comm] at divided
      exact divided.symm
    · rintro rfl
      exact Nat.mul_div_cancel _ recordSize_pos

end AzureInit.Kvp
