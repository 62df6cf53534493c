import AzureInit.Diagnostics.Demultiplexing

/-! Records of a diagnostic that are lost or stored twice: the reader returns a
prefix of the text or says what is missing, and never splices. -/

set_option autoImplicit false

namespace AzureInit.Diagnostics

open Foundation

/-- Every record as it is, with one error. -/
def asRaw (records : List (Text × Text)) (error : DecodeError) : List Entry :=
  records.map fun record => .raw { key := record.1, value := record.2, error := some error }

section

variable {crates : Crates}

/-- The one diagnostic that a reader makes of the first records: its text is theirs,
which is the front of the text emitted, or all of it if no record is missing. -/
def DecodedPrefix (emission : Emission crates) (survivors : List (Text × Text))
    (output : List Entry) : Prop :=
  ∃ (count : Nat) (diagnostic : Diagnostic) (original : Text),
    0 < count ∧ count ≤ emission.records.length ∧
    survivors.Perm (emission.records.take count) ∧
    output = [.diagnostic diagnostic] ∧
    diagnostic.payload = .text ((emission.records.take count).flatMap (·.2)) ∧
    emission.diagnostic.payload.contents = Utf8.encode original ∧
    (emission.records.take count).flatMap (·.2) <+: original ∧
    (count = emission.records.length →
      (emission.records.take count).flatMap (·.2) = original)

/-- What the reader owes to the records that survive. -/
structure LossDetected (emission : Emission crates) (survivors : List (Text × Text))
    (output : List Entry) : Prop where
  duplicates : ¬ survivors.Nodup → output = asRaw survivors .duplicateChunk
  complete : survivors.Nodup →
    (∃ count, survivors.Perm (emission.records.take count)) →
      DecodedPrefix emission survivors output
  gaps : survivors.Nodup →
    (¬ ∃ count, survivors.Perm (emission.records.take count)) →
      output = asRaw survivors .incompleteGroup

/-! ## The group of the survivors -/

variable {emission : Emission crates} {survivors : List (Text × Text)}

theorem survivors_grouped (own : ∀ record ∈ survivors, record ∈ emission.records) :
    ∀ record ∈ survivors, recordGroup crates record = some emission.baseKey :=
  fun record member => Emission.recordGroup_of_mem (own record member)

/-- The survivors as chunks of the emission's group. -/
theorem survivors_chunks (own : ∀ record ∈ survivors, record ∈ emission.records) :
    emission.Holds (chunksOf crates survivors.zipIdx emission.baseKey) ∧
      (chunksOf crates survivors.zipIdx emission.baseKey).map Chunk.record = survivors := by
  have all := Grouping.membersOf_eq_self (recordGroup crates) (survivors_grouped own)
  constructor
  · apply Emission.holds_chunksOf
    rw [all]
    exact own
  · rw [chunksOf_records, all]

/-- Distinct survivors are the first records if they are the first of any number. -/
theorem complete_survivors_iff {chunks : List Chunk} (holds : emission.Holds chunks)
    (arrived : chunks.map Chunk.record = survivors) :
    Complete chunks ↔ ∃ count, survivors.Perm (emission.records.take count) := by
  rw [holds.complete_iff, arrived]
  have sameLength : chunks.length = survivors.length := by
    rw [← arrived, List.length_map]
  rw [sameLength]
  constructor
  · exact fun first => ⟨_, first⟩
  · rintro ⟨count, first⟩
    have shorter := first.length_eq
    rw [List.length_take] at shorter
    rw [shorter, ← List.take_take, List.take_length]
    exact first

theorem result_of_unread (unread : emission.readTimestamp = none) (chunks : List Chunk) :
    (decodeGroup crates emission.baseKey).result chunks = .error .malformed := by
  rw [emission.result_decodeGroup, unread]

theorem result_of_read {timestamp : DateTime}
    (read : emission.readTimestamp = some timestamp) (chunks : List Chunk) :
    (decodeGroup crates emission.baseKey).result chunks =
      ((checkOrder (sortChunks chunks)).bind fun _ =>
        decodePayload crates (Utf8.encode ((sortChunks chunks).flatMap (·.raw.value)))
          emission.diagnostic.key.encoding).map
        (emission.diagnostic.restored timestamp emission.durationPrecision.cut) := by
  rw [emission.result_decodeGroup, read, result_decodeChunks]

@[simp] theorem payload_restored (diagnostic : Diagnostic) (timestamp : DateTime)
    (cut : SecondsFormat) (payload : DiagnosticPayload) :
    (diagnostic.restored timestamp cut payload).payload = payload := by
  cases diagnostic <;> rfl

/-- The emitted text, cut anywhere between two records. -/
theorem Emission.texts_prefix (unencoded : emission.diagnostic.key.encoding = none)
    (count : Nat) :
    ∃ original, emission.diagnostic.payload.contents = Utf8.encode original ∧
      (emission.records.take count).flatMap (·.2) <+: original ∧
      (count = emission.records.length →
        (emission.records.take count).flatMap (·.2) = original) := by
  obtain ⟨vmId, value, parts, -, framing, -⟩ := emission.shape
  have encoded := parts.encoded
  rw [unencoded] at encoded
  have joined : emission.records.flatMap (·.2) = value := by
    rw [List.flatMap_def]
    exact framing.joined
  refine ⟨value, (encodePayload_none_ok encoded).1.symm, ?_, ?_⟩
  · rw [← joined]
    conv_rhs => rw [← List.take_append_drop count emission.records, List.flatMap_append]
    exact List.prefix_append _ _
  · intro all
    rw [all, List.take_length, joined]

theorem lossDetected_of_read {timestamp : DateTime} (nonempty : survivors ≠ [])
    (own : ∀ record ∈ survivors, record ∈ emission.records)
    (unencoded : emission.diagnostic.key.encoding = none)
    (read : emission.readTimestamp = some timestamp) (order : HashOrder) :
    LossDetected emission survivors (decodeEntries crates order survivors) := by
  obtain ⟨holds, arrived⟩ := survivors_chunks own
  have output := decodeEntries_of_one_group crates order nonempty (survivors_grouped own)
  unfold groupResult at output
  rw [result_of_read read] at output
  have distinct := holds.nodup_iff
  rw [arrived] at distinct
  constructor
  · intro duplicates
    rw [checkOrder_of_duplicates fun numbers => duplicates (distinct.mp numbers)] at output
    exact output
  · intro _ first
    have complete := (complete_survivors_iff holds arrived).mpr first
    have permuted := (holds.complete_iff).mp complete
    have count : (chunksOf crates survivors.zipIdx emission.baseKey).length =
        survivors.length := by rw [← List.length_map, arrived]
    rw [arrived, count] at permuted
    have joined := joined_of_complete holds.texts complete
    rw [count, Emission.texts, ← List.map_take, ← List.flatMap_def] at joined
    rw [checkOrder_of_complete complete, joined, unencoded] at output
    simp only [Except.bind, decodePayload, Utf8.decode?_encode, Except.map] at output
    obtain ⟨original, contents, isPrefix, whole⟩ :=
      emission.texts_prefix unencoded survivors.length
    refine ⟨survivors.length, _, original, List.length_pos_iff.mpr nonempty, ?_, permuted,
      output, payload_restored .., contents, isPrefix, whole⟩
    have shorter := permuted.length_eq
    rw [List.length_take] at shorter
    omega
  · intro numbers gaps
    rw [checkOrder_of_gaps (distinct.mpr numbers) fun complete =>
      gaps ((complete_survivors_iff holds arrived).mp complete)] at output
    exact output

/-- A diagnostic whose timestamp is not read comes back as malformed records. -/
theorem decodeEntries_of_unread (nonempty : survivors ≠ [])
    (own : ∀ record ∈ survivors, record ∈ emission.records)
    (unread : emission.readTimestamp = none) (order : HashOrder) :
    decodeEntries crates order survivors = asRaw survivors .malformed := by
  rw [decodeEntries_of_one_group crates order nonempty (survivors_grouped own), groupResult,
    result_of_unread unread]
  rfl

theorem asRaw_injective (nonempty : survivors ≠ []) {left right : DecodeError}
    (same : asRaw survivors left = asRaw survivors right) : left = right := by
  cases survivors with
  | nil => exact absurd rfl nonempty
  | cons record rest =>
      simp only [asRaw, List.map_cons, List.cons.injEq, Entry.raw.injEq, RawKeyValue.mk.injEq,
        Option.some.injEq] at same
      exact same.1.2.2

theorem read_of_lossDetected (nonempty : survivors ≠ [])
    (own : ∀ record ∈ survivors, record ∈ emission.records) {order : HashOrder}
    (detected : LossDetected emission survivors (decodeEntries crates order survivors)) :
    emission.readTimestamp.isSome := by
  cases read : emission.readTimestamp with
  | some timestamp => rfl
  | none =>
      have output := decodeEntries_of_unread nonempty own read order
      by_cases distinct : survivors.Nodup
      · by_cases first : ∃ count, survivors.Perm (emission.records.take count)
        · obtain ⟨_, diagnostic, _, -, -, -, decoded, -⟩ := detected.complete distinct first
          rw [output] at decoded
          cases survivors with
          | nil => exact absurd rfl nonempty
          | cons record rest => simp [asRaw] at decoded
        · have incomplete := output.symm.trans (detected.gaps distinct first)
          exact absurd (asRaw_injective nonempty incomplete) (by decide)
      · have repeated := output.symm.trans (detected.duplicates distinct)
        exact absurd (asRaw_injective nonempty repeated) (by decide)

end

/-- What survives of an unencoded diagnostic is told for what it is exactly when its
timestamp has a year of four digits. -/
theorem chunk_loss_is_detected_iff (crates : Crates) (rfc3339 : crates.Rfc3339)
    (emission : Emission crates) (unencoded : emission.diagnostic.key.encoding = none)
    (survivors : List (Text × Text)) (nonempty : survivors ≠ [])
    (own : ∀ record ∈ survivors, record ∈ emission.records) (order : HashOrder) :
    LossDetected emission survivors (decodeEntries crates order survivors) ↔
      emission.diagnostic.key.timestamp.FourDigitYear := by
  rw [← emission.readTimestamp_isSome_iff rfc3339]
  constructor
  · exact read_of_lossDetected nonempty own
  · intro read
    obtain ⟨timestamp, found⟩ := Option.isSome_iff_exists.mp read
    exact lossDetected_of_read nonempty own unencoded found order

/-! ## A second chunk without the first -/

/-- The order in which the entries were made. -/
def unshuffled : HashOrder := ⟨id, fun _ => .rfl⟩

def longKey : Text :=
  "DIAG|azure-init/0.1.1|3f2504e0-4f89-41d3-9a0c-0305e82c3301|start|provision:run|8f3e9c4a-1b2c-4d5e-9f01-234567890abc|2026-08-31T12:34:56.789Z|none||".toList

def longRecords : List (Text × Text) :=
  [(chunkKey longKey 0, List.replicate maxChunkBytes 'a'), (chunkKey longKey 1, ['b'])]

def longEmission : Emission ReferenceCrates.reference where
  diagnostic := .start
    { key := startKey, payload := .text (List.replicate maxChunkBytes 'a' ++ ['b']) }
  timestampPrecision := .millis
  durationPrecision := .micros
  maxNameBytes := defaultMaxNameBytes
  records := longRecords
  prepared := by decide +kernel

theorem chunk_loss_is_detected_iff_firstLost :
    LossDetected longEmission [(chunkKey longKey 1, ['b'])]
        (decodeEntries ReferenceCrates.reference unshuffled [(chunkKey longKey 1, ['b'])]) ↔
      longEmission.diagnostic.key.timestamp.FourDigitYear :=
  chunk_loss_is_detected_iff ReferenceCrates.reference ReferenceCrates.reference_rfc3339
    longEmission rfl [(chunkKey longKey 1, ['b'])] (List.cons_ne_nil _ _)
    (fun _ member => List.mem_singleton.mp member ▸ List.mem_cons_of_mem _ List.mem_cons_self)
    unshuffled

theorem expandedEmission_loss_is_not_detected :
    expandedEmission.diagnostic.key.encoding = none ∧
      ¬ LossDetected expandedEmission expandedRecords
        (decodeEntries ReferenceCrates.reference unshuffled expandedRecords) := by
  refine ⟨rfl, ?_⟩
  intro detected
  have read : expandedEmission.readTimestamp.isSome :=
    read_of_lossDetected (List.cons_ne_nil _ _) (fun _ => id) detected
  rw [expandedEmission.readTimestamp_isSome_iff ReferenceCrates.reference_rfc3339] at read
  exact expandedEmission_not_fourDigitYear read

end AzureInit.Diagnostics
