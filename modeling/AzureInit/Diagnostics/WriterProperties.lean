import AzureInit.Foundation.FallibleState
import AzureInit.Foundation.Postconditions
import AzureInit.Diagnostics.Writer
import AzureInit.Kvp.RecordProperties

/-! What the records of an accepted diagnostic are: a key of ten valid fields and
an index, and the encoded payload cut into chunks. -/

set_option autoImplicit false

namespace AzureInit.Diagnostics

open Foundation
open Kvp (KvpError)

/-! ## Chunk framing -/

theorem cutChunk_spec (value : Text) :
    (cutChunk value).1 ++ (cutChunk value).2 = value ∧
      Utf8.byteLength (cutChunk value).1 ≤ maxChunkBytes := by
  obtain ⟨chunk, remaining, cut, joined, bounded⟩ :=
    Utf8.exists_split_floorCharBoundary value (min (Utf8.byteLength value) maxChunkBytes)
  simp only [cutChunk, cut, Option.getD_some]
  exact ⟨joined, Nat.le_trans bounded (Nat.min_le_right ..)⟩

/-- The records of chunks, numbered from a first index on. -/
def framedFrom (baseKey : Text) (first : Nat) (chunks : List Text) : List (Text × Text) :=
  (chunks.zipIdx first).map fun chunk => (chunkKey baseKey chunk.2, chunk.1)

def framed (baseKey : Text) (chunks : List Text) : List (Text × Text) :=
  framedFrom baseKey 0 chunks

@[simp] theorem framedFrom_cons (baseKey : Text) (first : Nat) (chunk : Text)
    (chunks : List Text) :
    framedFrom baseKey first (chunk :: chunks) =
      (chunkKey baseKey first, chunk) :: framedFrom baseKey (first + 1) chunks := rfl

/-- A division of a value into the chunks of an accepted diagnostic. -/
structure Framing (baseKey value : Text) (chunks : List Text) : Prop where
  nonempty : chunks ≠ []
  joined : chunks.flatten = value
  few : chunks.length ≤ maxChunks
  bounded : ∀ record ∈ framed baseKey chunks,
    Utf8.byteLength record.1 ≤ maxKeyBytes ∧ Utf8.byteLength record.2 ≤ maxChunkBytes

private theorem frameFrom_ok {baseKey value : Text} {room : Nat}
    {records result : List (Text × Text)}
    (accepted : frameFrom baseKey room records value = .ok result) :
    ∃ chunks : List Text, chunks ≠ [] ∧ chunks.flatten = value ∧ chunks.length ≤ room ∧
      result = records ++ framedFrom baseKey records.length chunks ∧
      ∀ record ∈ framedFrom baseKey records.length chunks,
        Utf8.byteLength record.1 ≤ maxKeyBytes ∧
          Utf8.byteLength record.2 ≤ maxChunkBytes := by
  induction room generalizing records value with
  | zero => cases accepted
  | succ room ih =>
      obtain ⟨joined, bounded⟩ := cutChunk_spec value
      simp only [frameFrom] at accepted
      split at accepted
      · cases accepted
      · rename_i keyFits
        have keyFits := Nat.le_of_not_lt keyFits
        split at accepted
        · rename_i last
          cases accepted
          rw [List.isEmpty_iff] at last
          rw [last, List.append_nil] at joined
          refine ⟨[(cutChunk value).1], by simp, by simpa using joined, by simp, rfl, ?_⟩
          intro record member
          cases List.mem_singleton.mp member
          exact ⟨keyFits, bounded⟩
        · obtain ⟨chunks, -, rejoined, few, rfl, restBounded⟩ := ih accepted
          rw [List.length_append, List.length_singleton] at restBounded ⊢
          refine ⟨(cutChunk value).1 :: chunks, by simp, ?_, by simpa using few, by simp, ?_⟩
          · rw [List.flatten_cons, rejoined, joined]
          · rw [framedFrom_cons, List.forall_mem_cons]
            exact ⟨⟨keyFits, bounded⟩, restBounded⟩

theorem frameRecords_ok {baseKey value : Text} {records : List (Text × Text)}
    (accepted : frameRecords baseKey value = .ok records) :
    ∃ chunks : List Text, Framing baseKey value chunks ∧ records = framed baseKey chunks := by
  obtain ⟨chunks, nonempty, joined, few, result, bounded⟩ := frameFrom_ok accepted
  exact ⟨chunks, ⟨nonempty, joined, few, bounded⟩, result⟩

theorem mem_framed_iff {baseKey : Text} {chunks : List Text} {record : Text × Text} :
    record ∈ framed baseKey chunks ↔
      ∃ index, chunks[index]? = some record.2 ∧ record.1 = chunkKey baseKey index := by
  unfold framed framedFrom
  rw [List.mem_map]
  constructor
  · intro found
    obtain ⟨chunk, member, rfl⟩ := found
    exact ⟨chunk.2, List.mem_zipIdx_iff_getElem?.mp member, rfl⟩
  · intro found
    obtain ⟨index, stored, key⟩ := found
    refine ⟨(record.2, index), List.mem_zipIdx_iff_getElem?.mpr stored, ?_⟩
    rw [← key]

theorem chunkKey_injective (baseKey : Text) : Function.Injective (chunkKey baseKey) := by
  intro left right same
  have sameDigits := (List.append_cancel_left same : _ :: _ = _ :: _)
  exact Decimal.digits_injective (List.cons.inj sameDigits).2

private theorem framedFrom_take (baseKey : Text) (first : Nat) (chunks : List Text)
    (count : Nat) :
    (framedFrom baseKey first chunks).take count =
      framedFrom baseKey first (chunks.take count) := by
  induction chunks generalizing first count with
  | nil => simp [framedFrom]
  | cons chunk chunks ih =>
      cases count with
      | zero => rfl
      | succ count =>
          rw [framedFrom_cons, List.take_succ_cons, List.take_succ_cons, framedFrom_cons, ih]

theorem length_framed (baseKey : Text) (chunks : List Text) :
    (framed baseKey chunks).length = chunks.length := by
  simp [framed, framedFrom]

theorem framed_map_fst (baseKey : Text) (chunks : List Text) :
    (framed baseKey chunks).map Prod.fst =
      (List.range chunks.length).map (chunkKey baseKey) := by
  rw [List.range_eq_range', ← List.zipIdx_map_snd 0 chunks, framed, framedFrom,
    List.map_map, List.map_map]
  rfl

theorem framed_map_snd (baseKey : Text) (chunks : List Text) :
    (framed baseKey chunks).map Prod.snd = chunks := by
  conv_rhs => rw [← List.zipIdx_map_fst 0 chunks]
  rw [framed, framedFrom, List.map_map]
  rfl

theorem framed_nodup (baseKey : Text) (chunks : List Text) :
    (framed baseKey chunks).Nodup := by
  have keysDistinct : ((framed baseKey chunks).map Prod.fst).Nodup := by
    rw [framed_map_fst]
    exact List.nodup_range.map (chunkKey_injective baseKey)
  exact List.Nodup.of_map _ keysDistinct

/-! ## Validation -/

/-- A text that may stand between the delimiters of a key. -/
structure KeyField (value : Text) : Prop where
  nonempty : value ≠ []
  undelimited : '|' ∉ value
  nulFree : '\x00' ∉ value

theorem validateField_ok {field value : Text} {max : Nat}
    (accepted : validateField field value max = .ok ()) : KeyField value := by
  unfold validateField at accepted
  split at accepted
  · cases accepted
  · rename_i nonempty
    split at accepted
    · cases accepted
    · rename_i undelimited
      split at accepted
      · cases accepted
      · rename_i nulFree
        exact ⟨by simpa using nonempty, by simpa using undelimited, by simpa using nulFree⟩

theorem validateUuid_ok {crates : Crates} {field value : Text}
    (accepted : validateUuid crates field value = .ok ()) :
    KeyField value ∧ crates.parseUuid value = true := by
  obtain ⟨_, valid, accepted⟩ := Fallible.bind_eq_ok_iff.mp accepted
  refine ⟨validateField_ok valid, ?_⟩
  by_contra refused
  rw [if_neg refused] at accepted
  cases accepted

/-! ## Payloads -/

/-- Whether a payload is a text message. -/
def DiagnosticPayload.isText : DiagnosticPayload → Bool
  | .text _ => true
  | .bytes _ => false

/-- An unencoded payload is stored as it is, and has no NUL. -/
theorem encodePayload_none_ok {crates : Crates} {payload : DiagnosticPayload} {value : Text}
    (encoded : encodePayload crates payload none = .ok value) :
    Utf8.encode value = payload.contents ∧ '\x00' ∉ value := by
  obtain ⟨text, isText, encoded⟩ := Fallible.bind_eq_ok_iff.mp encoded
  split at encoded
  · cases encoded
  · rename_i nulFree
    cases encoded
    refine ⟨?_, by simpa using nulFree⟩
    cases payload with
    | text message =>
        cases isText
        rfl
    | bytes content => exact Utf8.encode_of_decode? (okOr_eq_ok_iff.mp isText)

theorem fromIo_eq_ok {α : Type} {outcome : Except Kvp.IoError α} {value : α}
    (succeeded : fromIo outcome = .ok value) : outcome = .ok value := by
  cases outcome with
  | error error => cases succeeded
  | ok result =>
      cases succeeded
      rfl

/-- What was encoded decodes to its bytes, as text only when it is not encoded. -/
theorem decodePayload_encodePayload {crates : Crates} (codecs : crates.Codecs)
    {payload : DiagnosticPayload} {encoding : Option Encoding} {value : Text}
    (encoded : encodePayload crates payload encoding = .ok value) :
    '\x00' ∉ value ∧ ∃ restored,
      decodePayload crates (Utf8.encode value) encoding = .ok restored ∧
        restored.contents = payload.contents ∧ restored.isText = encoding.isNone := by
  cases encoding with
  | none =>
      obtain ⟨sameBytes, nulFree⟩ := encodePayload_none_ok encoded
      refine ⟨nulFree, .text value, ?_, sameBytes, rfl⟩
      simp [decodePayload]
  | some encoding =>
      cases encoding with
      | other token => cases encoded
      | gzB64 =>
          obtain ⟨compressed, succeeded, encoded⟩ := Fallible.bind_eq_ok_iff.mp encoded
          cases encoded
          refine ⟨codecs.base64_nulFree _, .bytes payload.contents, ?_, rfl, rfl⟩
          simp [decodePayload, decompress, codecs.base64_decode_encode,
            codecs.gz_decode_encode _ _ (fromIo_eq_ok succeeded)]
      | zlibB64 =>
          obtain ⟨compressed, succeeded, encoded⟩ := Fallible.bind_eq_ok_iff.mp encoded
          cases encoded
          refine ⟨codecs.base64_nulFree _, .bytes payload.contents, ?_, rfl, rfl⟩
          simp [decodePayload, decompress, codecs.base64_decode_encode,
            codecs.zlib_decode_encode _ _ (fromIo_eq_ok succeeded)]

/-! ## Accepted diagnostics -/

/-- The base key that the writer makes for an accepted diagnostic. -/
def writtenBase (crates : Crates) (diagnostic : Diagnostic)
    (timestampPrecision : TimestampPrecision) (durationPrecision : DurationPrecision)
    (vmId : Text) : Text :=
  ['|'].intercalate (baseKeyFields diagnostic vmId
    (crates.toRfc3339Opts diagnostic.key.timestamp timestampPrecision.secondsFormat)
    ((diagnostic.duration.map durationPrecision.format).getD []))

/-- What holds of the parts of an accepted diagnostic. -/
structure AcceptedParts (crates : Crates) (diagnostic : Diagnostic)
    (timestampPrecision : TimestampPrecision) (vmId value : Text) : Prop where
  agent : KeyField diagnostic.key.agent
  vmIdGiven : diagnostic.key.vmId = some vmId
  vmIdField : KeyField vmId
  vmIdParses : crates.parseUuid vmId = true
  name : KeyField diagnostic.key.name
  eventId : KeyField diagnostic.key.eventId
  timestamp : KeyField
    (crates.toRfc3339Opts diagnostic.key.timestamp timestampPrecision.secondsFormat)
  encoded : encodePayload crates diagnostic.payload diagnostic.key.encoding = .ok value

theorem prepareRecords_ok {crates : Crates} {diagnostic : Diagnostic}
    {timestampPrecision : TimestampPrecision} {durationPrecision : DurationPrecision}
    {maxNameBytes : Nat} {records : List (Text × Text)}
    (prepared : prepareRecords crates diagnostic timestampPrecision durationPrecision
      maxNameBytes = .ok records) :
    ∃ vmId value chunks,
      AcceptedParts crates diagnostic timestampPrecision vmId value ∧
        Framing (writtenBase crates diagnostic timestampPrecision durationPrecision vmId)
          value chunks ∧
        records =
          framed (writtenBase crates diagnostic timestampPrecision durationPrecision vmId)
            chunks := by
  obtain ⟨_, agent, prepared⟩ := Fallible.bind_eq_ok_iff.mp prepared
  obtain ⟨vmId, given, prepared⟩ := Fallible.bind_eq_ok_iff.mp prepared
  obtain ⟨_, vmIdValid, prepared⟩ := Fallible.bind_eq_ok_iff.mp prepared
  obtain ⟨_, name, prepared⟩ := Fallible.bind_eq_ok_iff.mp prepared
  obtain ⟨_, eventIdValid, prepared⟩ := Fallible.bind_eq_ok_iff.mp prepared
  obtain ⟨_, timestamp, prepared⟩ := Fallible.bind_eq_ok_iff.mp prepared
  obtain ⟨value, encoded, prepared⟩ := Fallible.bind_eq_ok_iff.mp prepared
  obtain ⟨chunks, framing, result⟩ := frameRecords_ok prepared
  obtain ⟨vmIdField, vmIdParses⟩ := validateUuid_ok vmIdValid
  exact ⟨vmId, value, chunks,
    { agent := validateField_ok agent
      vmIdGiven := okOr_eq_ok_iff.mp given
      vmIdField
      vmIdParses
      name := validateField_ok name
      eventId := (validateUuid_ok eventIdValid).1
      timestamp := validateField_ok timestamp
      encoded },
    framing, result⟩

end AzureInit.Diagnostics
