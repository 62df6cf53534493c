import AzureInit.Diagnostics.DurationCodec
import AzureInit.Diagnostics.ReaderProperties
import AzureInit.Diagnostics.WriterProperties

/-! The reader's view of a key that the writer made: the group it is placed in and
the header of that group. -/

set_option autoImplicit false

namespace AzureInit.Diagnostics

open Foundation

/-! ## Keys -/

/-- A text without the characters that a key cannot hold inside a field. -/
def Plain (value : Text) : Prop := '|' ∉ value ∧ '\x00' ∉ value

theorem KeyField.plain {value : Text} (field : KeyField value) : Plain value :=
  ⟨field.undelimited, field.nulFree⟩

theorem plain_digits (value : Nat) : Plain (Decimal.digits value) :=
  ⟨Decimal.not_mem_digits (by decide), Decimal.not_mem_digits (by decide)⟩

theorem plain_fixedPoint (width : Nat) (duration : Duration) :
    Plain (fixedPoint width duration) := by
  have excluded : ∀ c : Char, c.isDigit = false → c ≠ '.' →
      c ∉ fixedPoint width duration := by
    intro c notDigit notPoint
    rw [fixedPoint, List.mem_append, List.mem_cons, not_or, not_or]
    exact ⟨Decimal.not_mem_digits notDigit, notPoint, Decimal.not_mem_paddedDigits notDigit⟩
  exact ⟨excluded '|' (by decide) (by decide), excluded '\x00' (by decide) (by decide)⟩

theorem plain_format (precision : DurationPrecision) (duration : Duration) :
    Plain (precision.format duration) := by
  cases precision with
  | seconds => exact plain_digits _
  | millis => exact plain_fixedPoint 3 duration
  | micros => exact plain_fixedPoint 6 duration
  | nanos => exact plain_fixedPoint 9 duration

section

variable {crates : Crates} {diagnostic : Diagnostic}
  {timestampPrecision : TimestampPrecision} {durationPrecision : DurationPrecision}
  {vmId value : Text}

theorem AcceptedParts.supported
    (parts : AcceptedParts crates diagnostic timestampPrecision vmId value) :
    diagnostic.key.encoding = none ∨ diagnostic.key.encoding = some .zlibB64 ∨
      diagnostic.key.encoding = some .gzB64 := by
  have encoded := parts.encoded
  cases encoding : diagnostic.key.encoding with
  | none => exact .inl rfl
  | some token =>
      cases token with
      | zlibB64 => exact .inr (.inl rfl)
      | gzB64 => exact .inr (.inr rfl)
      | other token =>
          rw [encoding] at encoded
          cases encoded

/-- The ten fields of an accepted diagnostic. -/
def writtenFields (crates : Crates) (diagnostic : Diagnostic)
    (timestampPrecision : TimestampPrecision) (durationPrecision : DurationPrecision)
    (vmId : Text) : List Text :=
  baseKeyFields diagnostic vmId
    (crates.toRfc3339Opts diagnostic.key.timestamp timestampPrecision.secondsFormat)
    ((diagnostic.duration.map durationPrecision.format).getD [])

theorem writtenFields_plain
    (parts : AcceptedParts crates diagnostic timestampPrecision vmId value)
    (durationPrecision : DurationPrecision) :
    ∀ field ∈ writtenFields crates diagnostic timestampPrecision durationPrecision vmId,
      Plain field := by
  have kind : Plain diagnostic.kind.toText := by
    unfold Plain
    cases diagnostic.kind <;> decide
  have encoding : Plain ((diagnostic.key.encoding.map Encoding.toText).getD "none".toList) := by
    unfold Plain
    rcases parts.supported with plain | zlib | gzip
    · rw [plain]
      decide
    · rw [zlib]
      decide
    · rw [gzip]
      decide
  have result : Plain ((diagnostic.result.map Outcome.asStr).getD []) := by
    unfold Plain
    rcases diagnostic.result with _ | _ | _ <;> decide
  have duration : Plain ((diagnostic.duration.map durationPrecision.format).getD []) := by
    cases diagnostic.duration with
    | none => exact ⟨List.not_mem_nil, List.not_mem_nil⟩
    | some duration => exact plain_format durationPrecision duration
  have version : Plain diagnosticVersionId := by
    unfold Plain
    decide
  simp only [writtenFields, baseKeyFields, List.forall_mem_cons]
  exact ⟨version, parts.agent.plain, parts.vmIdField.plain, kind, parts.name.plain,
    parts.eventId.plain, parts.timestamp.plain, encoding, result, duration,
    fun _ member => absurd member List.not_mem_nil⟩

theorem splitOn_writtenBase
    (parts : AcceptedParts crates diagnostic timestampPrecision vmId value) :
    (writtenBase crates diagnostic timestampPrecision durationPrecision vmId).splitOn '|' =
      writtenFields crates diagnostic timestampPrecision durationPrecision vmId :=
  List.splitOn_intercalate '|'
    (fun field member => (writtenFields_plain parts durationPrecision field member).1)
    (by simp [baseKeyFields])

theorem writtenBase_nulFree
    (parts : AcceptedParts crates diagnostic timestampPrecision vmId value) :
    '\x00' ∉ writtenBase crates diagnostic timestampPrecision durationPrecision vmId :=
  Delimited.not_mem_intercalate (by decide) fun field member =>
    (writtenFields_plain parts durationPrecision field member).2

/-! ## Headers -/

theorem parseOutcome_asStr (result : Option Outcome) :
    parseOutcome ((result.map Outcome.asStr).getD []) = .ok result := by
  rcases result with _ | _ | _ <;> rfl

theorem parseOptionalDuration_format (crates : Crates) (precision : DurationPrecision)
    (duration : Option Duration) :
    parseOptionalDuration crates ((duration.map precision.format).getD []) =
      .ok (duration.map (·.truncate precision.cut)) := by
  cases duration with
  | none => rfl
  | some duration =>
      have nonempty : (precision.format duration).isEmpty = false := by
        have digits : Decimal.digits duration.secs.toNat ≠ [] := Nat.toDigits_ne_nil
        cases precision <;> simp [DurationPrecision.format, fixedPoint, digits]
      simp only [Option.map_some, Option.getD_some, parseOptionalDuration, nonempty,
        Bool.false_eq_true, ↓reduceIte, parseDuration, parseDecimalDuration_format]
      rfl

theorem encodingOfToken_toText
    (parts : AcceptedParts crates diagnostic timestampPrecision vmId value) :
    encodingOfToken ((diagnostic.key.encoding.map Encoding.toText).getD "none".toList) =
        diagnostic.key.encoding ∧
      ((diagnostic.key.encoding.map Encoding.toText).getD "none".toList).isEmpty = false := by
  rcases parts.supported with plain | zlib | gzip
  · rw [plain]
    exact ⟨rfl, rfl⟩
  · rw [zlib]
    exact ⟨rfl, rfl⟩
  · rw [gzip]
    exact ⟨rfl, rfl⟩

/-- The header of a diagnostic that was read back with a timestamp. -/
def Diagnostic.header (diagnostic : Diagnostic) (timestamp : DateTime) (cut : SecondsFormat) :
    DiagHeader where
  key := { diagnostic.key with timestamp }
  kind := diagnostic.kind.toText
  result := diagnostic.result
  duration := diagnostic.duration.map (·.truncate cut)

/-- The reader gets as far as the timestamp of every key that the writer made. -/
theorem parseDiagHeader_writtenBase
    (parts : AcceptedParts crates diagnostic timestampPrecision vmId value) :
    parseDiagHeader crates
        (writtenBase crates diagnostic timestampPrecision durationPrecision vmId) =
      (okOr (crates.parseFromRfc3339 (crates.toRfc3339Opts diagnostic.key.timestamp
        timestampPrecision.secondsFormat)) DecodeError.malformed).map fun timestamp =>
          diagnostic.header timestamp durationPrecision.cut := by
  have nulFree : (writtenBase crates diagnostic timestampPrecision durationPrecision
      vmId).contains '\x00' = false := by
    simpa using writtenBase_nulFree parts
  obtain ⟨sameEncoding, encodingGiven⟩ := encodingOfToken_toText parts
  have agent : diagnostic.key.agent.isEmpty = false := by simp [parts.agent.nonempty]
  have vmIdGiven : vmId.isEmpty = false := by simp [parts.vmIdField.nonempty]
  have name : diagnostic.key.name.isEmpty = false := by simp [parts.name.nonempty]
  have eventId : diagnostic.key.eventId.isEmpty = false := by simp [parts.eventId.nonempty]
  have timestamp : (crates.toRfc3339Opts diagnostic.key.timestamp
      timestampPrecision.secondsFormat).isEmpty = false := by
    simp [parts.timestamp.nonempty]
  unfold parseDiagHeader
  rw [splitOn_writtenBase parts, nulFree]
  simp only [writtenFields, baseKeyFields, bne_self_eq_false, Bool.or_false,
    List.any_cons, List.any_nil, agent, vmIdGiven, name, eventId, timestamp, encodingGiven,
    Bool.false_eq_true, ↓reduceIte, parts.vmIdParses, Bool.not_true, parseOutcome_asStr,
    parseOptionalDuration_format, sameEncoding]
  cases crates.parseFromRfc3339 (crates.toRfc3339Opts diagnostic.key.timestamp
      timestampPrecision.secondsFormat) with
  | none => rfl
  | some timestamp =>
      simp only [okOr, bind, Except.bind, Except.map, pure, Except.pure, ← parts.vmIdGiven,
        Diagnostic.header]

/-! ## Groups -/

/-- A diagnostic with what the reader puts in place of its timestamp, its payload and
the digits of its duration. -/
def Diagnostic.restored (diagnostic : Diagnostic) (timestamp : DateTime)
    (cut : SecondsFormat) (payload : DiagnosticPayload) : Diagnostic :=
  match diagnostic with
  | .start begun => .start { key := { begun.key with timestamp }, payload }
  | .finish ended =>
      .finish { ended with
        key := { ended.key with timestamp }
        payload
        duration := ended.duration.truncate cut }
  | .event observed =>
      .event { observed with
        key := { observed.key with timestamp }
        payload
        duration := observed.duration.map (·.truncate cut) }

theorem firstField_writtenBase
    (parts : AcceptedParts crates diagnostic timestampPrecision vmId value) :
    Delimited.firstField '|'
        (writtenBase crates diagnostic timestampPrecision durationPrecision vmId) =
      diagnosticVersionId :=
  Delimited.firstField_of_splitOn (splitOn_writtenBase parts)

theorem rsplitOnce?_chunkKey (base : Text) (index : Nat) :
    Delimited.rsplitOnce? ['|'] (chunkKey base index) = some (base, Decimal.digits index) :=
  Delimited.rsplitOnce?_append_cons (Decimal.not_mem_digits (by decide))

theorem splitChunkKey_chunkKey (base : Text) {index : Nat} (fits : index < UInt64.size) :
    splitChunkKey (chunkKey base index) = .ok (base, UInt64.ofNat index) := by
  unfold splitChunkKey
  rw [rsplitOnce?_chunkKey]
  simp only [okOr, bind, Except.bind, parseUnsigned_digits_of_lt fits]
  rfl

theorem placeRecord_chunkKey
    (parts : AcceptedParts crates diagnostic timestampPrecision vmId value) {index : Nat}
    (fits : index < UInt64.size) (chunk : Text) :
    placeRecord crates
        (chunkKey (writtenBase crates diagnostic timestampPrecision durationPrecision vmId)
          index, chunk) =
      .chunk (writtenBase crates diagnostic timestampPrecision durationPrecision vmId)
        (UInt64.ofNat index) := by
  have first : Delimited.firstField '|' (chunkKey
      (writtenBase crates diagnostic timestampPrecision durationPrecision vmId) index) =
        diagnosticVersionId := by
    rw [chunkKey, Delimited.firstField_append_cons, firstField_writtenBase parts]
  unfold placeRecord
  simp only [first, beq_self_eq_true, ↓reduceIte, splitChunkKey_chunkKey _ fits]
  rfl

theorem result_decodeWithHeader (crates : Crates) (diagnostic : Diagnostic)
    (timestamp : DateTime) (cut : SecondsFormat) (chunks : List Chunk) :
    (decodeWithHeader crates (diagnostic.header timestamp cut)).result chunks =
      ((decodeChunks crates diagnostic.key.encoding).result chunks).map
        (diagnostic.restored timestamp cut) := by
  have decoded : ∀ (decoder : ChunkDecoder DiagnosticPayload)
      (next : DiagnosticPayload → Diagnostic),
      (do
        let payload ← decoder
        return next payload : ChunkDecoder Diagnostic).result chunks =
          (decoder.result chunks).map next := by
    intro decoder next
    rw [result_bind]
    cases decoder.result chunks <;> rfl
  cases diagnostic with
  | start begun => exact decoded ..
  | finish ended => exact decoded ..
  | event observed => exact decoded ..

/-- A group of the writer's records decodes by its chunks once its timestamp does. -/
theorem result_decodeGroup_writtenBase
    (parts : AcceptedParts crates diagnostic timestampPrecision vmId value)
    (chunks : List Chunk) :
    (decodeGroup crates (writtenBase crates diagnostic timestampPrecision durationPrecision
        vmId)).result chunks =
      match crates.parseFromRfc3339 (crates.toRfc3339Opts diagnostic.key.timestamp
        timestampPrecision.secondsFormat) with
      | none => .error .malformed
      | some timestamp =>
          ((decodeChunks crates diagnostic.key.encoding).result chunks).map
            (diagnostic.restored timestamp durationPrecision.cut) := by
  have notCloudInit : ¬ (diagnosticVersionId == CloudInit.keyPrefix) = true := by decide
  unfold decodeGroup
  rw [firstField_writtenBase parts, if_neg notCloudInit, decodeDiagGroup, result_bind,
    result_ofExcept, left_ofExcept, parseDiagHeader_writtenBase parts]
  cases crates.parseFromRfc3339 (crates.toRfc3339Opts diagnostic.key.timestamp
      timestampPrecision.secondsFormat) with
  | none => rfl
  | some timestamp => exact result_decodeWithHeader ..

end

end AzureInit.Diagnostics
