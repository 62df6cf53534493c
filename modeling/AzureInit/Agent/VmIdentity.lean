import AzureInit.Agent.BootOutcome
import AzureInit.Diagnostics.JsonText
import AzureInit.Provision.SshdConvergence

/-! Which machine a boot takes itself to be on: firmware of either generation tells it the
same, and the markers of two machines are two. -/

set_option autoImplicit false

namespace AzureInit.Agent

open Foundation
open Foundation.Event
open AzureInit.Configuration (Config)
open Diagnostics.Json (hexDigit?)
open Provision (pathJoin pathPush)

/-- A UUID is printed in hexadecimal with hyphens, and parsed from what is printed. -/
structure UuidCrate.Documented (uuid : UuidCrate) : Prop where
  parseStr_toText : ∀ value, uuid.parseStr (uuid.toText value) = some value
  toText_ne_nil : ∀ value, uuid.toText value ≠ []
  slashFree : ∀ value, '/' ∉ uuid.toText value

/-- Without characters beyond ASCII, lowercase is the lowercase of the characters. -/
structure Platform.Documented (platform : Platform) : Prop where
  uuid : platform.uuid.Documented
  toLowercase_eq : ∀ text : Text, (∀ c ∈ text, c.toNat < 128) →
    platform.toLowercase text = text.map Char.toLower

/-- A text of the firmware that tells a UUID, in any case and with white space around it. -/
structure Tells (platform : Platform) (uuid : Uuid) (text : Text) : Prop where
  ascii : ∀ c ∈ trim text, c.toNat < 128
  same : (trim text).map Char.toLower = platform.uuid.toText uuid

/-- What is read of the machine with a UUID: the first generation tells it with its first
fields swapped. -/
inductive MachineLog (platform : Platform) (uuid : Uuid) : List BootEvent → Prop where
  | gen1 {text : Text} {sysfsError devError : Kvp.IoError} :
      Tells platform (swapUuidToLittleEndian platform.littleEndian uuid) text →
      MachineLog platform uuid [⟨.readToString productUuid, .ok text⟩,
        ⟨.metadata sysfsEfi, .error sysfsError⟩, ⟨.metadata devEfi, .error devError⟩]
  | sysfs {text : Text} {directory : Bool} :
      Tells platform uuid text →
      MachineLog platform uuid [⟨.readToString productUuid, .ok text⟩,
        ⟨.metadata sysfsEfi, .ok directory⟩]
  | dev {text : Text} {sysfsError : Kvp.IoError} {directory : Bool} :
      Tells platform uuid text →
      MachineLog platform uuid [⟨.readToString productUuid, .ok text⟩,
        ⟨.metadata sysfsEfi, .error sysfsError⟩, ⟨.metadata devEfi, .ok directory⟩]

section Identity

variable {platform : Platform} {uuid : Uuid} {text : Text} {log rest : List BootEvent}
  {id : Option Text}

theorem Tells.lowercase_eq (tells : Tells platform uuid text) (documented : platform.Documented) :
    platform.toLowercase (trim text) = platform.uuid.toText uuid := by
  rw [documented.toLowercase_eq _ tells.ascii, tells.same]

/-- A UUID that is told is known, unless the generation asks for a swap. -/
theorem id_of_tells (documented : platform.Documented) (tells : Tells platform uuid text)
    (logged : Logged (getVmId platform) id (⟨.readToString productUuid, .ok text⟩ :: rest)) :
    ∃ gen1, Logged (isVmGen1 none none) gen1 rest ∧ id = some (if gen1 then
      gen1VmId platform (platform.uuid.toText uuid) else platform.uuid.toText uuid) := by
  obtain ⟨reply, others, read, same⟩ := logged_call_iff.mp logged
  cases same
  have known : Logged (if (platform.toLowercase (trim text)).isEmpty then pure none
      else isVmGen1 none none >>= fun gen1 =>
        if gen1 then pure (some (gen1VmId platform (platform.toLowercase (trim text))))
        else pure (some (platform.toLowercase (trim text)))) id rest := read
  rw [tells.lowercase_eq documented,
    if_neg (by simp [documented.uuid.toText_ne_nil uuid])] at known
  obtain ⟨gen1, first, second, looked, chosen, rfl⟩ := logged_bind_iff.mp known
  refine ⟨gen1, ?_⟩
  cases gen1 with
  | true =>
      obtain ⟨rfl, rfl⟩ := logged_pure_iff.mp chosen
      exact ⟨by rwa [List.append_nil], rfl⟩
  | false =>
      obtain ⟨rfl, rfl⟩ := logged_pure_iff.mp chosen
      exact ⟨by rwa [List.append_nil], rfl⟩

/-- A path that is there tells the second generation. -/
theorem gen1_eq {sysfs : Except Kvp.IoError Bool} {gen1 : Bool}
    (logged : Logged (isVmGen1 none none) gen1 (⟨.metadata sysfsEfi, sysfs⟩ :: rest)) :
    (sysfs.isOk = true ∧ gen1 = false ∧ rest = []) ∨
      ∃ dev, sysfs.isOk = false ∧ rest = [⟨.metadata devEfi, dev⟩] ∧ gen1 = !dev.isOk := by
  obtain ⟨reply, others, looked, same⟩ := logged_call_iff.mp logged
  cases same
  cases sysfs with
  | ok directory =>
      obtain ⟨rfl, rfl⟩ := logged_pure_iff.mp looked
      exact .inl ⟨rfl, rfl, rfl⟩
  | error error =>
      obtain ⟨dev, last, answered, rfl⟩ := logged_call_iff.mp looked
      obtain ⟨rfl, rfl⟩ := logged_pure_iff.mp answered
      exact .inr ⟨dev, rfl, rfl, rfl⟩

/-- Either generation makes the UUID known as it is printed. -/
theorem id_of_machineLog (documented : platform.Documented)
    (machine : MachineLog platform uuid log) (logged : Logged (getVmId platform) id log) :
    id = some (platform.uuid.toText uuid) := by
  cases machine with
  | gen1 tells =>
      obtain ⟨gen1, looked, rfl⟩ := id_of_tells documented tells logged
      rcases gen1_eq looked with found | missing
      · cases found.1
      · obtain ⟨dev, -, same, rfl⟩ := missing
        cases same
        simp [gen1VmId, documented.uuid.parseStr_toText, Except.isOk, Except.toBool]
  | sysfs tells =>
      obtain ⟨gen1, looked, rfl⟩ := id_of_tells documented tells logged
      rcases gen1_eq looked with found | missing
      · rw [found.2.1]
        rfl
      · cases missing.choose_spec.1
  | dev tells =>
      obtain ⟨gen1, looked, rfl⟩ := id_of_tells documented tells logged
      rcases gen1_eq looked with found | missing
      · cases found.1
      · obtain ⟨dev, -, same, rfl⟩ := missing
        cases same
        rfl

/-! ## Markers of machines -/

theorem pathPush_injective (path : Text) : Function.Injective (pathPush path) := by
  intro first second same
  unfold pathPush at same
  split_ifs at same
  · exact List.append_cancel_left same
  · exact List.cons_injective (List.append_cancel_left same)

theorem markerPath_of_uuid (documented : platform.Documented) (config : Config) (uuid : Uuid) :
    markerPath config (platform.uuid.toText uuid) =
      pathPush config.azureInitDataDir.path (platform.uuid.toText uuid ++ '.' :: provisioned) := by
  unfold markerPath pathJoin
  refine if_neg fun absolute => documented.uuid.slashFree uuid ?_
  obtain ⟨c, front, printed⟩ := List.exists_cons_of_ne_nil (documented.uuid.toText_ne_nil uuid)
  rw [printed] at absolute ⊢
  cases absolute
  exact List.mem_cons_self

/-- Two boots look for the same marker exactly if they are on the same machine. -/
theorem markers_tell_machines {other : Uuid} {otherLog : List BootEvent} {otherId : Option Text}
    (documented : platform.Documented) (config : Config)
    (machine : MachineLog platform uuid log) (otherMachine : MachineLog platform other otherLog)
    (read : Logged (getVmId platform) id log)
    (otherRead : Logged (getVmId platform) otherId otherLog) :
    markerPath config (id.getD nilVmId) = markerPath config (otherId.getD nilVmId) ↔
      uuid = other := by
  rw [id_of_machineLog documented machine read,
    id_of_machineLog documented otherMachine otherRead]
  simp only [Option.getD_some, markerPath_of_uuid documented]
  constructor
  · intro same
    have printed := List.append_cancel_right (pathPush_injective _ same)
    have parsed := congrArg platform.uuid.parseStr printed
    rw [documented.uuid.parseStr_toText, documented.uuid.parseStr_toText] at parsed
    exact Option.some.inj parsed
  · intro same
    rw [same]

end Identity

/-! ## The UUID crate for hyphenated texts -/

def hexByte (byte : UInt8) : Text :=
  [Nat.digitChar (byte.toNat / 16), Nat.digitChar (byte.toNat % 16)]

def hexText (bytes : List UInt8) : Text := bytes.flatMap hexByte

def hexBytes? : Text → Option (List UInt8)
  | high :: low :: text => do
      return UInt8.ofNat ((← hexDigit? high) * 16 + (← hexDigit? low)) :: (← hexBytes? text)
  | [] => some []
  | [_] => none

def referenceUuid : UuidCrate where
  toText uuid := hexText (uuid.bytes.take 4) ++ '-' :: hexText ((uuid.bytes.drop 4).take 2) ++
    '-' :: hexText ((uuid.bytes.drop 6).take 2) ++ '-' :: hexText ((uuid.bytes.drop 8).take 2) ++
    '-' :: hexText (uuid.bytes.drop 10)
  parseStr text := (hexBytes? (text.filter (· != '-'))).bind fun bytes =>
    if sixteen : bytes.length = 16 then some ⟨bytes, sixteen⟩ else none

theorem digitChar_spec : ∀ digit < 16, hexDigit? (Nat.digitChar digit) = some digit ∧
    Nat.digitChar digit ≠ '-' ∧ Nat.digitChar digit ≠ '/' := by
  decide

theorem hexText_spec (bytes : List UInt8) : ∀ c ∈ hexText bytes, c ≠ '-' ∧ c ≠ '/' := by
  intro c member
  obtain ⟨byte, -, digit⟩ := List.mem_flatMap.mp member
  have small := byte.toNat_lt
  rcases List.mem_pair.mp digit with rfl | rfl
  · exact (digitChar_spec _ (by omega)).2
  · exact (digitChar_spec _ (by omega)).2

theorem hexBytes?_hexText (bytes : List UInt8) : hexBytes? (hexText bytes) = some bytes := by
  induction bytes with
  | nil => rfl
  | cons byte bytes ih =>
      have small := byte.toNat_lt
      have high := (digitChar_spec (byte.toNat / 16) (by omega)).1
      have low := (digitChar_spec (byte.toNat % 16) (by omega)).1
      have whole : byte.toNat / 16 * 16 + byte.toNat % 16 = byte.toNat := by omega
      have split : hexText (byte :: bytes) = Nat.digitChar (byte.toNat / 16) ::
          Nat.digitChar (byte.toNat % 16) :: hexText bytes := rfl
      rw [split, hexBytes?, high, low, ih]
      show some (UInt8.ofNat (byte.toNat / 16 * 16 + byte.toNat % 16) :: bytes) = _
      rw [whole, UInt8.ofNat_toNat]

theorem filter_hexText (bytes : List UInt8) : (hexText bytes).filter (· != '-') = hexText bytes :=
  List.filter_eq_self.mpr fun c member => by simp [(hexText_spec bytes c member).1]

theorem referenceUuid_documented : referenceUuid.Documented where
  parseStr_toText uuid := by
    obtain ⟨bytes, sixteen⟩ := uuid
    have joined : hexText (bytes.take 4) ++ hexText ((bytes.drop 4).take 2) ++
        hexText ((bytes.drop 6).take 2) ++ hexText ((bytes.drop 8).take 2) ++
        hexText (bytes.drop 10) = hexText bytes := by
      match bytes, sixteen with
      | [_, _, _, _, _, _, _, _, _, _, _, _, _, _, _, _], _ => rfl
    simp only [referenceUuid, List.filter_append, List.filter_cons, filter_hexText, bne_self_eq_false,
      Bool.false_eq_true, if_false, joined, hexBytes?_hexText, Option.bind_some, sixteen, dif_pos]
  toText_ne_nil uuid := by simp [referenceUuid]
  slashFree uuid member := by
    simp only [referenceUuid, List.mem_append, List.mem_cons] at member
    have digits := fun bytes => hexText_spec bytes '/'
    grind

def referencePlatform : Platform where
  littleEndian := true
  toLowercase text := text.map Char.toLower
  uuid := referenceUuid
  regex := Provision.referenceRegex
  csvWriteRecord := Diagnostics.ReferenceCrates.csvWriteRecord
  order := .stored
  printIoError _ := "os error".toList
  printCommand command := command.program
  printStatus status := "exit status: ".toList ++ Decimal.digits status.code

theorem referencePlatform_documented : referencePlatform.Documented where
  uuid := referenceUuid_documented
  toLowercase_eq _ _ := rfl

def sampleUuid : Uuid where
  bytes := [0x55, 0x0e, 0x84, 0x00, 0xe2, 0x9b, 0x41, 0xd4, 0xa7, 0x16, 0x44, 0x66, 0x55, 0x44,
    0x00, 0x00]
  length_eq := rfl

def sampleId : Text := "550e8400-e29b-41d4-a716-446655440000".toList

def otherUuid : Uuid where
  bytes := [0x12, 0x34, 0x56, 0x78, 0xe2, 0x9b, 0x41, 0xd4, 0xa7, 0x16, 0x44, 0x66, 0x55, 0x44,
    0x00, 0x00]
  length_eq := rfl

def otherId : Text := "12345678-e29b-41d4-a716-446655440000".toList

/-- What firmware of the second generation is asked. -/
def gen2Log (printed : Text) : List BootEvent :=
  [⟨.readToString productUuid, .ok printed⟩, ⟨.metadata sysfsEfi, .ok true⟩]

/-- What firmware of the first one is asked. -/
def gen1Log (printed : Text) : List BootEvent :=
  [⟨.readToString productUuid, .ok printed⟩, ⟨.metadata sysfsEfi, .error { kind := .notFound }⟩,
    ⟨.metadata devEfi, .error { kind := .notFound }⟩]

theorem ascii_of_all {text : Text} (ascii : (text.all fun c => c.toNat < 128) = true) :
    ∀ c ∈ text, c.toNat < 128 :=
  fun c member => of_decide_eq_true (List.all_eq_true.mp ascii c member)

theorem sampleMachine_gen2 : MachineLog referencePlatform sampleUuid
    (gen2Log "550E8400-E29B-41D4-A716-446655440000\n".toList) :=
  .sysfs ⟨ascii_of_all (by decide), by decide⟩

theorem sampleMachine_gen1 : MachineLog referencePlatform sampleUuid
    (gen1Log "00840e55-9be2-d441-a716-446655440000\n".toList) :=
  .gen1 ⟨ascii_of_all (by decide), by decide⟩

theorem otherMachine_gen1 : MachineLog referencePlatform otherUuid
    (gen1Log "78563412-9be2-d441-a716-446655440000\n".toList) :=
  .gen1 ⟨ascii_of_all (by decide), by decide⟩

theorem logged_sampleMachine_gen2 : Logged (getVmId referencePlatform) (some sampleId)
    (gen2Log "550E8400-E29B-41D4-A716-446655440000\n".toList) := by
  refine logged_call_iff.mpr ⟨.ok "550E8400-E29B-41D4-A716-446655440000\n".toList, _, ?_, rfl⟩
  exact logged_call_iff.mpr ⟨.ok true, [], logged_pure_iff.mpr ⟨by decide, rfl⟩, rfl⟩

/-- What firmware of the first generation tells. -/
theorem logged_gen1Log {printed vmId : Text} (named : (trim printed).isEmpty = false)
    (told : gen1VmId referencePlatform (referencePlatform.toLowercase (trim printed)) = vmId) :
    Logged (getVmId referencePlatform) (some vmId) (gen1Log printed) := by
  have lowered : (referencePlatform.toLowercase (trim printed)).isEmpty = false := by
    rw [← named]
    exact List.isEmpty_map
  refine logged_call_iff.mpr ⟨.ok printed, _, ?_, rfl⟩
  show Logged (if _ then _ else _) _ _
  rw [if_neg (by simp [lowered])]
  refine logged_call_iff.mpr ⟨.error { kind := .notFound }, _, ?_, rfl⟩
  exact logged_call_iff.mpr
    ⟨.error { kind := .notFound }, [], logged_pure_iff.mpr ⟨by rw [← told], rfl⟩, rfl⟩

theorem logged_sampleMachine_gen1 : Logged (getVmId referencePlatform) (some sampleId)
    (gen1Log "00840e55-9be2-d441-a716-446655440000\n".toList) :=
  logged_gen1Log (by decide) (by decide)

theorem logged_otherMachine_gen1 : Logged (getVmId referencePlatform) (some otherId)
    (gen1Log "78563412-9be2-d441-a716-446655440000\n".toList) :=
  logged_gen1Log (by decide) (by decide)

/-- One machine behind firmware of both generations, and another one. -/
theorem sample_markers_tell_machines :
    (markerPath {} ((some sampleId).getD nilVmId) = markerPath {} ((some sampleId).getD nilVmId) ↔
      sampleUuid = sampleUuid) ∧
    (markerPath {} ((some sampleId).getD nilVmId) = markerPath {} ((some otherId).getD nilVmId) ↔
      sampleUuid = otherUuid) ∧ sampleUuid ≠ otherUuid :=
  ⟨markers_tell_machines referencePlatform_documented {} sampleMachine_gen2 sampleMachine_gen1
      logged_sampleMachine_gen2 logged_sampleMachine_gen1,
    markers_tell_machines referencePlatform_documented {} sampleMachine_gen2 otherMachine_gen1
      logged_sampleMachine_gen2 logged_otherMachine_gen1,
    by decide⟩

end AzureInit.Agent
