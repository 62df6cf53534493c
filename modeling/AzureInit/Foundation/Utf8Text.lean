import Mathlib.Tactic
import Mathlib.Data.List.Basic

/-! Text as a list of Unicode scalar values with its UTF-8 form. Encoding and
strict decoding are the core library's; this module carries their inverse laws
over to byte lists and defines cuts at byte offsets on character boundaries. -/

set_option autoImplicit false

namespace AzureInit.Foundation

/-- A string value: its sequence of Unicode scalar values. -/
abbrev Text := List Char

namespace Utf8

def encode (text : Text) : List UInt8 := text.flatMap String.utf8EncodeChar

/-- Strict decoding; `none` for every byte list that is not well-formed UTF-8. -/
def decode? (bytes : List UInt8) : Option Text :=
  (ByteArray.utf8Decode? ⟨bytes.toArray⟩).map Array.toList

/-- Length in bytes. -/
def byteLength (text : Text) : Nat := (encode text).length

@[simp] theorem encode_nil : encode [] = [] := rfl

@[simp] theorem encode_cons (head : Char) (tail : Text) :
    encode (head :: tail) = String.utf8EncodeChar head ++ encode tail := rfl

@[simp] theorem encode_append (left right : Text) :
    encode (left ++ right) = encode left ++ encode right :=
  List.flatMap_append

@[simp] theorem byteLength_nil : byteLength [] = 0 := rfl

@[simp] theorem byteLength_cons (head : Char) (tail : Text) :
    byteLength (head :: tail) = head.utf8Size + byteLength tail := by
  simp [byteLength]

@[simp] theorem byteLength_append (left right : Text) :
    byteLength (left ++ right) = byteLength left + byteLength right := by
  simp [byteLength]

@[simp] theorem length_encode (text : Text) : (encode text).length = byteLength text := rfl

theorem byteLength_eq_zero_iff {text : Text} : byteLength text = 0 ↔ text = [] := by
  cases text with
  | nil => simp
  | cons head tail =>
      have positive := Char.utf8Size_pos head
      simp only [byteLength_cons, reduceCtorEq, iff_false]
      omega

theorem length_le_byteLength (text : Text) : text.length ≤ byteLength text := by
  induction text with
  | nil => exact Nat.le_refl 0
  | cons head tail ih =>
      have positive := Char.utf8Size_pos head
      rw [List.length_cons, byteLength_cons]
      omega

private theorem utf8Encode_eq (text : Text) :
    text.utf8Encode = ⟨(encode text).toArray⟩ := by
  simp only [List.utf8Encode, encode]
  apply ByteArray.ext
  simp

/-- Decoding inverts encoding on every text. -/
@[simp] theorem decode?_encode (text : Text) : decode? (encode text) = some text := by
  have decoded := List.utf8Decode?_utf8Encode (l := text)
  rw [utf8Encode_eq] at decoded
  simp [decode?, decoded]

/-- An accepted byte list is exactly the encoding of the text it decodes to. -/
theorem encode_of_decode? {bytes : List UInt8} {text : Text}
    (decoded : decode? bytes = some text) : encode text = bytes := by
  simp only [decode?, Option.map_eq_some_iff] at decoded
  obtain ⟨characters, accepted, rfl⟩ := decoded
  have isSome : (ByteArray.utf8Decode? ⟨bytes.toArray⟩).isSome := by simp [accepted]
  have inverse := ByteArray.utf8Encode_get_utf8Decode? (h := isSome)
  simp only [accepted, Option.get_some, utf8Encode_eq] at inverse
  simpa using congrArg (fun array => array.data.toList) inverse

theorem decode?_eq_some_iff {bytes : List UInt8} {text : Text} :
    decode? bytes = some text ↔ encode text = bytes := by
  constructor
  · exact encode_of_decode?
  · rintro rfl
    exact decode?_encode text

theorem encodeChar_ascii {ascii : Char} (isAscii : ascii.toNat < 128) :
    String.utf8EncodeChar ascii = [UInt8.ofNat ascii.toNat] := by
  have oneByte : ascii.utf8Size = 1 := by
    rw [Char.utf8Size_eq_one_iff, UInt32.le_iff_toNat_le]
    exact Nat.le_of_lt_succ isAscii
  rw [String.utf8EncodeChar_eq_singleton oneByte, ← UInt8.ofNat_uInt32ToNat]
  rfl

theorem byteLength_of_ascii {text : Text} (ascii : ∀ c ∈ text, c.toNat < 128) :
    byteLength text = text.length := by
  induction text with
  | nil => rfl
  | cons head tail ih =>
      obtain ⟨isAscii, others⟩ := List.forall_mem_cons.mp ascii
      have single : head.utf8Size = 1 := by
        rw [← String.length_utf8EncodeChar, encodeChar_ascii isAscii, List.length_singleton]
      rw [byteLength_cons, ih others, single, List.length_cons, Nat.add_comm]

theorem ascii_mem_encodeChar_iff {ascii c : Char} (isAscii : ascii.toNat < 128) :
    UInt8.ofNat ascii.toNat ∈ String.utf8EncodeChar c ↔ c = ascii := by
  have valid : c.val.toNat < 1114112 := by
    have bound := c.valid
    simp only [UInt32.isValidChar, Nat.isValidChar] at bound
    omega
  have sameValue : c = ascii ↔ c.val.toNat = ascii.toNat := by
    rw [Char.ext_iff, ← UInt32.toNat_inj]
    rfl
  rw [sameValue]
  fun_cases String.utf8EncodeChar c <;>
    simp only [List.mem_cons, List.not_mem_nil, or_false, ← UInt8.toNat_inj,
      UInt8.toNat_ofNat'] <;> omega

/-- The encoding of a character outside ASCII has no byte below 128. -/
theorem high_of_mem_encodeChar {c : Char} (notAscii : ¬ c.toNat < 128) {byte : UInt8}
    (member : byte ∈ String.utf8EncodeChar c) : 128 ≤ byte.toNat := by
  by_contra low
  have isChar : byte.toNat.isValidChar := Or.inl (by omega)
  have value : (Char.ofNat byte.toNat).toNat = byte.toNat := by
    rw [Char.ofNat, dif_pos isChar]
    rfl
  have sameByte : UInt8.ofNat (Char.ofNat byte.toNat).toNat = byte := by
    rw [value, UInt8.ofNat_toNat]
  rw [← sameByte] at member
  have found := (ascii_mem_encodeChar_iff (by omega)).mp member
  rw [found, value] at notAscii
  exact notAscii (by omega)

/-- Bytes below 128 occur only as the encodings of their own characters. -/
theorem ascii_mem_encode_iff {ascii : Char} {text : Text} (isAscii : ascii.toNat < 128) :
    UInt8.ofNat ascii.toNat ∈ encode text ↔ ascii ∈ text := by
  induction text with
  | nil => simp
  | cons head tail ih =>
      simp only [encode_cons, List.mem_append, ih, List.mem_cons,
        ascii_mem_encodeChar_iff isAscii, eq_comm]

theorem nul_mem_encode_iff {text : Text} : (0 : UInt8) ∈ encode text ↔ '\x00' ∈ text :=
  @ascii_mem_encode_iff '\x00' text (by decide)

/-- No encoding contains a byte above the four-byte lead bytes. -/
theorem not_mem_encode_of_le {byte : UInt8} {text : Text} (high : 248 ≤ byte.toNat) :
    byte ∉ encode text := by
  induction text with
  | nil => simp
  | cons head tail ih =>
      have valid : head.val.toNat < 1114112 := by
        have bound := head.valid
        simp only [UInt32.isValidChar, Nat.isValidChar] at bound
        omega
      rw [encode_cons, List.mem_append, not_or]
      refine ⟨?_, ih⟩
      fun_cases String.utf8EncodeChar head <;>
        simp only [List.mem_cons, List.not_mem_nil, or_false, ← UInt8.toNat_inj,
          UInt8.toNat_ofNat'] <;> omega

/-! ## Cuts at byte offsets -/

/-- The text before and from a byte offset; `none` off the character boundaries. -/
def splitAt? : Text → Nat → Option (Text × Text)
  | text, 0 => some ([], text)
  | [], _ + 1 => none
  | head :: tail, offset + 1 =>
      if head.utf8Size ≤ offset + 1 then
        (splitAt? tail (offset + 1 - head.utf8Size)).map
          (fun parts => (head :: parts.1, parts.2))
      else none

def isCharBoundary (text : Text) (offset : Nat) : Bool := (splitAt? text offset).isSome

/-- The largest character boundary at or below an offset, searched downwards. -/
def floorCharBoundary (text : Text) : Nat → Nat
  | 0 => 0
  | offset + 1 =>
      if isCharBoundary text (offset + 1) then offset + 1
      else floorCharBoundary text offset

@[simp] theorem splitAt?_zero (text : Text) : splitAt? text 0 = some ([], text) := by
  cases text <;> rfl

theorem splitAt?_eq_some_iff {text left right : Text} {offset : Nat} :
    splitAt? text offset = some (left, right) ↔
      left ++ right = text ∧ byteLength left = offset := by
  induction text generalizing offset left with
  | nil =>
      cases offset with
      | zero =>
          simp only [splitAt?_zero, Option.some.injEq, Prod.mk.injEq,
            List.append_eq_nil_iff, byteLength_eq_zero_iff]
          grind
      | succ offset =>
          simp only [splitAt?, reduceCtorEq, List.append_eq_nil_iff, false_iff]
          rintro ⟨⟨rfl, rfl⟩, length⟩
          simp at length
  | cons head tail ih =>
      cases offset with
      | zero =>
          simp only [splitAt?_zero, Option.some.injEq, Prod.mk.injEq, byteLength_eq_zero_iff]
          grind
      | succ offset =>
          have positive := Char.utf8Size_pos head
          cases left with
          | nil =>
              simp only [splitAt?]
              split <;> simp
          | cons first left =>
              simp only [splitAt?, List.cons_append, List.cons.injEq, byteLength_cons]
              split
              · rename_i fits
                simp only [Option.map_eq_some_iff, Prod.exists, Prod.mk.injEq, List.cons.injEq]
                constructor
                · rintro ⟨before, after, found, ⟨rfl, rfl⟩, rfl⟩
                  obtain ⟨joined, length⟩ := ih.mp found
                  exact ⟨⟨rfl, joined⟩, by omega⟩
                · rintro ⟨⟨rfl, joined⟩, length⟩
                  exact ⟨left, right, ih.mpr ⟨joined, by omega⟩, ⟨rfl, rfl⟩, rfl⟩
              · rename_i tooWide
                simp only [reduceCtorEq, false_iff]
                rintro ⟨⟨rfl, -⟩, length⟩
                omega

theorem isCharBoundary_iff {text : Text} {offset : Nat} :
    isCharBoundary text offset = true ↔
      ∃ left right, left ++ right = text ∧ byteLength left = offset := by
  simp only [isCharBoundary, Option.isSome_iff_exists, Prod.exists, splitAt?_eq_some_iff]

theorem floorCharBoundary_le (text : Text) (offset : Nat) :
    floorCharBoundary text offset ≤ offset := by
  induction offset with
  | zero => simp [floorCharBoundary]
  | succ offset ih =>
      simp only [floorCharBoundary]
      split <;> omega

theorem isCharBoundary_floorCharBoundary (text : Text) (offset : Nat) :
    isCharBoundary text (floorCharBoundary text offset) = true := by
  induction offset with
  | zero => simp [floorCharBoundary, isCharBoundary]
  | succ offset ih =>
      simp only [floorCharBoundary]
      split
      · assumption
      · exact ih

/-- The cut made at the floor boundary is a division of the text. -/
theorem exists_split_floorCharBoundary (text : Text) (offset : Nat) :
    ∃ left right, splitAt? text (floorCharBoundary text offset) = some (left, right) ∧
      left ++ right = text ∧ byteLength left ≤ offset := by
  obtain ⟨left, right, joined, length⟩ :=
    isCharBoundary_iff.mp (isCharBoundary_floorCharBoundary text offset)
  refine ⟨left, right, splitAt?_eq_some_iff.mpr ⟨joined, length⟩, joined, ?_⟩
  rw [length]
  exact floorCharBoundary_le text offset

end Utf8

end AzureInit.Foundation
