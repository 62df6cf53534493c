import AzureInit.Agent.BootRequests
import Mathlib.Data.List.DropRight

/-! The identity of the virtual machine, as its firmware tells it. -/

set_option autoImplicit false

namespace AzureInit.Agent

open Foundation
open Foundation.Program (ask)
open Kvp (IoError)
open Provision (isWhitespace)

/-! ## The order of bytes -/

/-- The number whose bytes these are, the most significant one in front. -/
def fromBeBytes (bytes : List UInt8) : Nat :=
  bytes.foldl (fun number byte => 256 * number + byte.toNat) 0

/-- The bytes of a number, the least significant one in front. -/
def toLeBytes : Nat → Nat → List UInt8
  | 0, _ => []
  | width + 1, number => UInt8.ofNat (number % 256) :: toLeBytes width (number / 256)

def toNeBytes (littleEndian : Bool) (width number : Nat) : List UInt8 :=
  if littleEndian then toLeBytes width number else (toLeBytes width number).reverse

@[simp] theorem length_toLeBytes (width number : Nat) : (toLeBytes width number).length = width := by
  induction width generalizing number with
  | zero => rfl
  | succ width ih => simp [toLeBytes, ih]

@[simp] theorem length_toNeBytes (littleEndian : Bool) (width number : Nat) :
    (toNeBytes littleEndian width number).length = width := by
  cases littleEndian <;> simp [toNeBytes]

/-- A number in the native order, with as many bytes as it was read from. -/
def swapField (littleEndian : Bool) (bytes : List UInt8) : List UInt8 :=
  toNeBytes littleEndian bytes.length (fromBeBytes bytes)

@[simp] theorem length_swapField (littleEndian : Bool) (bytes : List UInt8) :
    (swapField littleEndian bytes).length = bytes.length :=
  length_toNeBytes ..

/-- The first three fields in the native order; the last eight bytes stay. -/
def swapBytes (littleEndian : Bool) (bytes : List UInt8) : List UInt8 :=
  let d1 := swapField littleEndian (bytes.take 4)
  let d2 := swapField littleEndian ((bytes.drop 4).take 2)
  let d3 := swapField littleEndian ((bytes.drop 6).take 2)
  d1 ++ d2 ++ d3 ++ bytes.drop 8

theorem fromBeBytes_concat (bytes : List UInt8) (byte : UInt8) :
    fromBeBytes (bytes ++ [byte]) = 256 * fromBeBytes bytes + byte.toNat := by
  simp [fromBeBytes]

theorem toLeBytes_fromBeBytes (bytes : List UInt8) :
    toLeBytes bytes.length (fromBeBytes bytes) = bytes.reverse := by
  induction bytes using List.reverseRecOn with
  | nil => rfl
  | append_singleton bytes byte ih =>
      have small := byte.toNat_lt
      have low : (256 * fromBeBytes bytes + byte.toNat) % 256 = byte.toNat := by omega
      have high : (256 * fromBeBytes bytes + byte.toNat) / 256 = fromBeBytes bytes := by omega
      rw [List.length_append, List.length_singleton, toLeBytes, fromBeBytes_concat, low, high, ih]
      simp

/-- The bytes of a field are turned around, or they have the native order already. -/
theorem swapField_eq (littleEndian : Bool) (bytes : List UInt8) :
    swapField littleEndian bytes = if littleEndian then bytes.reverse else bytes := by
  cases littleEndian <;> simp [swapField, toNeBytes, toLeBytes_fromBeBytes]

def swapUuidToLittleEndian (littleEndian : Bool) (uuid : Uuid) : Uuid where
  bytes := swapBytes littleEndian uuid.bytes
  length_eq := by simp [swapBytes, uuid.length_eq]

theorem swapBytes_swapBytes (littleEndian : Bool) {bytes : List UInt8}
    (sixteen : bytes.length = 16) :
    swapBytes littleEndian (swapBytes littleEndian bytes) = bytes := by
  match bytes, sixteen with
  | [_, _, _, _, _, _, _, _, _, _, _, _, _, _, _, _], _ =>
      cases littleEndian <;> simp [swapBytes, swapField_eq]

/-- Who swaps the fields twice has them as they were. -/
@[simp] theorem swapUuid_swapUuid (littleEndian : Bool) (uuid : Uuid) :
    swapUuidToLittleEndian littleEndian (swapUuidToLittleEndian littleEndian uuid) = uuid := by
  obtain ⟨bytes, sixteen⟩ := uuid
  simp only [swapUuidToLittleEndian, swapBytes_swapBytes littleEndian sixteen]

/-! ## The identity -/

def trim (text : Text) : Text := (text.dropWhile isWhitespace).rdropWhile isWhitespace

def sysfsEfi : Text := "/sys/firmware/efi".toList

def devEfi : Text := "/dev/efi".toList

/-- Neither of the paths of EFI is there; the second one is looked for after the first. -/
def isVmGen1 (sysfsEfiPath devEfiPath : Option Text) : BootProgram Bool := do
  if ← pathExists (sysfsEfiPath.getD sysfsEfi) then return false
  else return !(← pathExists (devEfiPath.getD devEfi))

def productUuid : Text := "/sys/class/dmi/id/product_uuid".toList

section Identity

variable (platform : Platform)

/-- The identity of a machine of the first generation. -/
def gen1VmId (systemUuid : Text) : Text :=
  match platform.uuid.parseStr systemUuid with
  | some uuid => platform.uuid.toText (swapUuidToLittleEndian platform.littleEndian uuid)
  | none => systemUuid

def privateGetVmId (productUuidPath sysfsEfiPath devEfiPath : Option Text) :
    BootProgram (Option Text) := do
  match ← ask (BootRequest.readToString (productUuidPath.getD productUuid)) with
  | .error _ => return none
  | .ok text =>
      let systemUuid := platform.toLowercase (trim text)
      if systemUuid.isEmpty then return none
      else if ← isVmGen1 sysfsEfiPath devEfiPath then return some (gen1VmId platform systemUuid)
      else return some systemUuid

def getVmId : BootProgram (Option Text) := privateGetVmId platform none none none

end Identity

end AzureInit.Agent
