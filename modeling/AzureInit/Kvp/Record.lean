import AzureInit.Foundation.FixedBlocks
import AzureInit.Kvp.Error

/-! Pool modes, validation, and the fixed-width record codec. -/

set_option autoImplicit false

namespace AzureInit.Kvp

open Foundation

def wireMaxKeyBytes : Nat := 512
def wireMaxValueBytes : Nat := 2048
def safeMaxKeyBytes : Nat := 254
def safeMaxValueBytes : Nat := 1022

/-- Unique-key limit for insert and load operations. -/
def maxUniqueKeys : Nat := 1024

def recordSize : Nat := wireMaxKeyBytes + wireMaxValueBytes

def usizeMax : Nat := 2 ^ 64 - 1

inductive PoolMode where
  | safe
  | unsafe_
  deriving DecidableEq, Repr

def PoolMode.maxKeySize : PoolMode → Nat
  | .safe => safeMaxKeyBytes
  | .unsafe_ => wireMaxKeyBytes

def PoolMode.maxValueSize : PoolMode → Nat
  | .safe => safeMaxValueBytes
  | .unsafe_ => wireMaxValueBytes

def validateKey (key : Text) (max : Nat) : Except KvpError Unit := do
  if key.isEmpty then
    throw .emptyKey
  if (Utf8.encode key).contains 0 then
    throw .keyContainsNull
  let actual := Utf8.byteLength key
  if actual > max then
    throw (.keyTooLarge max actual)

def validateValue (value : Text) (max : Nat) : Except KvpError Unit := do
  if (Utf8.encode value).contains 0 then
    throw .valueContainsNull
  let actual := Utf8.byteLength value
  if actual > max then
    throw (.valueTooLarge max actual)

/-- The bytes cut to a field's width and zero-padded to fill it. -/
def zeroPadded (width : Nat) (bytes : List UInt8) : List UInt8 :=
  bytes.take width ++ List.replicate (width - bytes.length) 0

def encodeRecord (key value : Text) : List UInt8 :=
  zeroPadded wireMaxKeyBytes (Utf8.encode key) ++
    zeroPadded wireMaxValueBytes (Utf8.encode value)

/-- A field's text: its bytes up to the first NUL, or the full width. -/
def decodeField (bytes : List UInt8) : Except IoError Text :=
  match Utf8.decode? (bytes.take (bytes.findIdx (· == 0))) with
  | some text => .ok text
  | none => .error { kind := .invalidData }

def decodeRecord (data : List UInt8) : Except IoError (Text × Text) := do
  if data.length ≠ recordSize then
    throw {
      kind := .other
      message := "record size mismatch: expected ".toList ++ Nat.toDigits 10 recordSize ++
        ", got ".toList ++ Nat.toDigits 10 data.length }
  let (keyBytes, valueBytes) := data.splitAt wireMaxKeyBytes
  let key ← decodeField keyBytes
  let value ← decodeField valueBytes
  return (key, value)

def recordCountFromLen (len : Nat) : Except IoError Nat :=
  if len > 0 ∧ len % recordSize ≠ 0 then
    .error {
      kind := .other
      message := "file size (".toList ++ Nat.toDigits 10 len ++
        ") is not a multiple of record size (".toList ++ Nat.toDigits 10 recordSize ++
        ")".toList }
  else .ok (len / recordSize)

end AzureInit.Kvp
