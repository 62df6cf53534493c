import AzureInit.Diagnostics.Emission
import AzureInit.Diagnostics.ReferenceCrates

/-! Writer, pool and reader together: what is emitted is what is read back. -/

set_option autoImplicit false

namespace AzureInit.Diagnostics

open Foundation
open Kvp (PoolMode)

section

variable {crates : Crates}

/-- The records of an emission fit a pool of either mode. -/
theorem Emission.record_bounds {emission : Emission crates} (codecs : crates.Codecs)
    {record : Text × Text} (member : record ∈ emission.records) :
    record.1 ≠ [] ∧ '\x00' ∉ record.1 ∧ Utf8.byteLength record.1 ≤ maxKeyBytes ∧
      '\x00' ∉ record.2 ∧ Utf8.byteLength record.2 ≤ maxChunkBytes := by
  obtain ⟨vmId, value, parts, baseKey, framing, records⟩ := emission.shape
  rw [records] at member
  obtain ⟨keyFits, valueFits⟩ := framing.bounded record member
  obtain ⟨index, stored, key⟩ := mem_framed_iff.mp member
  have baseNulFree : '\x00' ∉ emission.baseKey := by
    rw [baseKey]
    exact writtenBase_nulFree parts
  have keyNulFree : '\x00' ∉ record.1 := by
    rw [key, chunkKey, List.mem_append, not_or, List.mem_cons, not_or]
    exact ⟨baseNulFree, by decide, Decimal.not_mem_digits (by decide)⟩
  have valueNulFree : '\x00' ∉ record.2 := by
    intro nul
    apply (decodePayload_encodePayload codecs parts.encoded).1
    rw [← framing.joined]
    exact List.mem_flatten_of_mem (List.mem_of_getElem? stored) nul
  exact ⟨by simp [key, chunkKey], keyNulFree, keyFits, valueNulFree, valueFits⟩

theorem Emission.record_valid {emission : Emission crates} (codecs : crates.Codecs)
    {record : Text × Text} (member : record ∈ emission.records) (mode : PoolMode) :
    Kvp.validateKey record.1 mode.maxKeySize = .ok () ∧
      Kvp.validateValue record.2 mode.maxValueSize = .ok () := by
  obtain ⟨given, keyNulFree, keyFits, valueNulFree, valueFits⟩ :=
    emission.record_bounds codecs member
  have keyRoom : maxKeyBytes ≤ mode.maxKeySize := by cases mode <;> decide
  have valueRoom : maxChunkBytes ≤ mode.maxValueSize := by cases mode <;> decide
  exact ⟨Kvp.validateKey_eq_ok_iff.mpr ⟨given, keyNulFree, Nat.le_trans keyFits keyRoom⟩,
    Kvp.validateValue_eq_ok_iff.mpr ⟨valueNulFree, Nat.le_trans valueFits valueRoom⟩⟩

/-- A record as the pool file stores it and reads it back. -/
def storedRecord (record : Text × Text) : Except Kvp.IoError (Text × Text) :=
  Kvp.decodeRecord (Kvp.encodeRecord record.1 record.2)

theorem Emission.storedRecord_eq {emission : Emission crates} (codecs : crates.Codecs)
    {record : Text × Text} (member : record ∈ emission.records) :
    storedRecord record = .ok record := by
  obtain ⟨-, keyNulFree, keyFits, valueNulFree, valueFits⟩ :=
    emission.record_bounds codecs member
  exact Kvp.RawRecord.decode_encode keyNulFree (Nat.le_trans keyFits (by decide))
    valueNulFree (Nat.le_trans valueFits (by decide))

private theorem mapM_eq_ok {ε α : Type} {values : List α} {f : α → Except ε α}
    (fixed : ∀ value ∈ values, f value = .ok value) : values.mapM f = .ok values := by
  induction values with
  | nil => rfl
  | cons head tail ih =>
      obtain ⟨here, later⟩ := List.forall_mem_cons.mp fixed
      rw [List.mapM_cons, here, ih later]
      rfl

end

/-- Every prepared record fits the pool, and whatever order the records are stored in,
the reader returns the one diagnostic they were made from. -/
theorem prepared_diagnostic_is_read_back (crates : Crates) (rfc3339 : crates.Rfc3339)
    (codecs : crates.Codecs) (diagnostic : Diagnostic)
    (timestampPrecision : TimestampPrecision) (durationPrecision : DurationPrecision)
    (maxNameBytes : Nat) (records : List (Text × Text))
    (fromYearZero : 0 ≤ diagnostic.key.timestamp.year)
    (fourDigitYear : diagnostic.key.timestamp.year ≤ 9999)
    (noLeapSecond : diagnostic.key.timestamp.isLeapSecond = false)
    (prepared : prepareRecords crates diagnostic timestampPrecision durationPrecision
      maxNameBytes = .ok records) :
    (∀ record ∈ records, ∀ mode : PoolMode,
      Kvp.validateKey record.1 mode.maxKeySize = .ok () ∧
        Kvp.validateValue record.2 mode.maxValueSize = .ok ()) ∧
      ∃ payload : DiagnosticPayload,
        payload.contents = diagnostic.payload.contents ∧
          payload.isText = diagnostic.key.encoding.isNone ∧
            ∀ pool : List (Text × Text), pool.Perm records →
              ∃ stored, pool.mapM storedRecord = .ok stored ∧
                ∀ order : HashOrder, decodeEntries crates order stored =
                  [.diagnostic (diagnostic.restored
                    (diagnostic.key.timestamp.truncate timestampPrecision.secondsFormat)
                    durationPrecision.cut payload)] := by
  let emission : Emission crates :=
    { diagnostic, timestampPrecision, durationPrecision, maxNameBytes, records, prepared }
  refine ⟨fun record member => emission.record_valid codecs member, ?_⟩
  obtain ⟨payload, sameContents, form, decoded⟩ := emission.decoded_eq codecs
  refine ⟨payload, sameContents, form, ?_⟩
  intro pool all
  refine ⟨pool, mapM_eq_ok fun record member =>
    emission.storedRecord_eq codecs (all.mem_iff.mp member), ?_⟩
  intro order
  have readBack : emission.readTimestamp =
      some (diagnostic.key.timestamp.truncate timestampPrecision.secondsFormat) :=
    rfc3339.parse_format _ _ fromYearZero fourDigitYear noLeapSecond
  rw [readBack] at decoded
  rw [emission.decodeEntries_of_all order all, decoded]
  rfl

/-! ## A start of an operation -/

def startTime : DateTime where
  year := 2026
  month := 8
  day := 31
  hour := 12
  minute := 34
  second := 56
  nanosecond := 789123456
  validMonth := by decide
  validDay := by decide
  validTime := by decide
  validNanosecond := by decide

def startKey : DiagnosticKey where
  agent := "azure-init/0.1.1".toList
  vmId := some "3f2504e0-4f89-41d3-9a0c-0305e82c3301".toList
  name := "provision:run".toList
  eventId := "8f3e9c4a-1b2c-4d5e-9f01-234567890abc".toList
  timestamp := startTime
  encoding := none

def startDiagnostic : Diagnostic :=
  .start { key := startKey, payload := .text "starting".toList }

def startRecords : List (Text × Text) :=
  [("DIAG|azure-init/0.1.1|3f2504e0-4f89-41d3-9a0c-0305e82c3301|start|provision:run|8f3e9c4a-1b2c-4d5e-9f01-234567890abc|2026-08-31T12:34:56.789Z|none|||0".toList,
    "starting".toList)]

theorem prepareRecords_startDiagnostic :
    prepareRecords ReferenceCrates.reference startDiagnostic .millis .micros
      defaultMaxNameBytes = .ok startRecords := by
  decide +kernel

/-- The end of the operation, with a payload that is compressed and takes two records. -/
def finishDiagnostic : Diagnostic :=
  .finish {
    key := { startKey with encoding := some .zlibB64 }
    payload := .bytes (List.replicate 600 7)
    result := .ok
    duration := { secs := 1, nanos := 234567891, validNanos := by decide } }

def finishRecords : List (Text × Text) :=
  ((prepareRecords ReferenceCrates.reference finishDiagnostic .millis .micros
    defaultMaxNameBytes).toOption).getD []

theorem length_finishRecords : finishRecords.length = 2 := by decide +kernel

theorem prepareRecords_finishDiagnostic :
    prepareRecords ReferenceCrates.reference finishDiagnostic .millis .micros
      defaultMaxNameBytes = .ok finishRecords := by
  have some := length_finishRecords
  unfold finishRecords at some ⊢
  cases prepared : prepareRecords ReferenceCrates.reference finishDiagnostic .millis .micros
    defaultMaxNameBytes with
  | ok records => rfl
  | error error =>
      rw [prepared] at some
      cases some

theorem prepared_diagnostic_is_read_back_finish :
    finishRecords.length = 2 ∧
    (∀ record ∈ finishRecords, ∀ mode : PoolMode,
      Kvp.validateKey record.1 mode.maxKeySize = .ok () ∧
        Kvp.validateValue record.2 mode.maxValueSize = .ok ()) ∧
      ∃ payload : DiagnosticPayload,
        payload.contents = List.replicate 600 7 ∧ payload.isText = false ∧
          ∀ pool : List (Text × Text), pool.Perm finishRecords →
            ∃ stored, pool.mapM storedRecord = .ok stored ∧
              ∀ order : HashOrder,
                decodeEntries ReferenceCrates.reference order stored =
                  [.diagnostic (finishDiagnostic.restored (startTime.truncate .millis)
                    .micros payload)] :=
  ⟨length_finishRecords, prepared_diagnostic_is_read_back ReferenceCrates.reference
    ReferenceCrates.reference_rfc3339 ReferenceCrates.reference_codecs finishDiagnostic
    .millis .micros defaultMaxNameBytes finishRecords (by decide) (by decide) (by decide)
    prepareRecords_finishDiagnostic⟩

end AzureInit.Diagnostics
