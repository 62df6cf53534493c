import AzureInit.Diagnostics.ChunkOrder
import AzureInit.Diagnostics.HeaderRoundTrip

/-! Diagnostics that the writer accepted, and what the reader makes of a list of
their records: the records that arrive decide by their indices alone. -/

set_option autoImplicit false

namespace AzureInit.Diagnostics

open Foundation

/-- A diagnostic with the records that the writer prepared for it. -/
structure Emission (crates : Crates) where
  diagnostic : Diagnostic
  timestampPrecision : TimestampPrecision
  durationPrecision : DurationPrecision
  maxNameBytes : Nat
  records : List (Text × Text)
  prepared : prepareRecords crates diagnostic timestampPrecision durationPrecision
    maxNameBytes = .ok records

/-- A key without the chunk index behind it. -/
def withoutIndex (key : Text) : Text :=
  ((Delimited.rsplitOnce? ['|'] key).map (·.1)).getD key

theorem withoutIndex_chunkKey (base : Text) (index : Nat) :
    withoutIndex (chunkKey base index) = base := by
  unfold withoutIndex
  rw [rsplitOnce?_chunkKey]
  rfl

namespace Emission

variable {crates : Crates}

/-- The key that the records share, without the chunk index. -/
def baseKey (emission : Emission crates) : Text :=
  withoutIndex ((emission.records.head?.map (·.1)).getD [])

def texts (emission : Emission crates) : List Text := emission.records.map (·.2)

/-- The timestamp that the reader gets from the printed one. -/
def readTimestamp (emission : Emission crates) : Option DateTime :=
  crates.parseFromRfc3339 (crates.toRfc3339Opts emission.diagnostic.key.timestamp
    emission.timestampPrecision.secondsFormat)

theorem framed_texts (base : Text) (chunks : List Text) :
    (framed base chunks).map (·.2) = chunks := by
  unfold framed framedFrom
  rw [List.map_map]
  exact List.zipIdx_map_fst 0 chunks

/-- All there is to know of the writer's side. -/
theorem shape (emission : Emission crates) :
    ∃ vmId value,
      AcceptedParts crates emission.diagnostic emission.timestampPrecision vmId value ∧
        emission.baseKey = writtenBase crates emission.diagnostic
          emission.timestampPrecision emission.durationPrecision vmId ∧
        Framing emission.baseKey value emission.texts ∧
        emission.records = framed emission.baseKey emission.texts := by
  obtain ⟨vmId, value, chunks, parts, framing, records⟩ := prepareRecords_ok emission.prepared
  have texts : emission.texts = chunks := by
    unfold Emission.texts
    rw [records, framed_texts]
  have baseKey : emission.baseKey = writtenBase crates emission.diagnostic
      emission.timestampPrecision emission.durationPrecision vmId := by
    unfold Emission.baseKey
    rw [records]
    cases chunks with
    | nil => exact absurd rfl framing.nonempty
    | cons first rest => exact withoutIndex_chunkKey _ 0
  refine ⟨vmId, value, parts, baseKey, ?_, ?_⟩
  · rw [baseKey, texts]
    exact framing
  · rw [baseKey, texts]
    exact records

theorem records_nodup (emission : Emission crates) : emission.records.Nodup := by
  obtain ⟨_, _, -, -, -, records⟩ := emission.shape
  rw [records]
  exact framed_nodup ..

theorem records_ne_nil (emission : Emission crates) : emission.records ≠ [] := by
  obtain ⟨_, _, -, -, framing, -⟩ := emission.shape
  intro none_prepared
  exact framing.nonempty (by rw [Emission.texts, none_prepared]; rfl)

/-- The reader places each record in the group of the base key, at its own index. -/
theorem placeRecord_of_mem {emission : Emission crates} {record : Text × Text}
    (member : record ∈ emission.records) :
    ∃ index : UInt64, emission.records[index.toNat]? = some record ∧
      placeRecord crates record = .chunk emission.baseKey index := by
  obtain ⟨vmId, value, parts, baseKey, framing, records⟩ := emission.shape
  rw [records] at member
  obtain ⟨index, stored, key⟩ := mem_framed_iff.mp member
  have inside : index < emission.texts.length := (List.getElem?_eq_some_iff.mp stored).1
  have fits : index < UInt64.size :=
    Nat.lt_trans (Nat.lt_of_lt_of_le inside framing.few) (by decide)
  have sameIndex : (UInt64.ofNat index).toNat = index := UInt64.toNat_ofNat_of_lt' fits
  refine ⟨UInt64.ofNat index, ?_, ?_⟩
  · rw [sameIndex, records, framed, framedFrom, List.getElem?_map, List.getElem?_zipIdx, stored]
    simp only [Option.map_some, Nat.zero_add, ← key]
  · have placed : placeRecord crates (chunkKey emission.baseKey index, record.2) =
        .chunk emission.baseKey (UInt64.ofNat index) := by
      rw [baseKey]
      exact placeRecord_chunkKey parts fits record.2
    rw [← key] at placed
    exact placed

theorem recordGroup_of_mem {emission : Emission crates} {record : Text × Text}
    (member : record ∈ emission.records) :
    recordGroup crates record = some emission.baseKey := by
  obtain ⟨index, -, placed⟩ := placeRecord_of_mem member
  simp [recordGroup, placed]

/-- A group of the emission decodes by its chunks once its timestamp does. -/
theorem result_decodeGroup (emission : Emission crates) (chunks : List Chunk) :
    (decodeGroup crates emission.baseKey).result chunks =
      match emission.readTimestamp with
      | none => .error .malformed
      | some timestamp =>
          ((decodeChunks crates emission.diagnostic.key.encoding).result chunks).map
            (emission.diagnostic.restored timestamp emission.durationPrecision.cut) := by
  obtain ⟨vmId, value, parts, baseKey, -, -⟩ := emission.shape
  rw [baseKey]
  exact result_decodeGroup_writtenBase parts chunks

end Emission

/-! ## The chunks that arrive -/

/-- The record that a chunk was made from. -/
def Chunk.record (chunk : Chunk) : Text × Text := (chunk.raw.key, chunk.raw.value)

theorem chunksOf_records (crates : Crates) (pool : List (Text × Text)) (base : Text) :
    (chunksOf crates pool.zipIdx base).map Chunk.record =
      Grouping.membersOf (recordGroup crates) pool base := by
  have sameGroup : Grouping.membersOf (groupKey crates) pool.zipIdx base =
      pool.zipIdx.filter ((fun record => decide (recordGroup crates record = some base)) ∘
        Prod.fst) := rfl
  have sameRecord : Chunk.record ∘ chunkAt crates = Prod.fst := rfl
  unfold chunksOf
  rw [List.map_map, sameRecord, sameGroup, ← List.filter_map, List.zipIdx_map_fst]
  rfl

/-- Chunks that were made from records of the emission. -/
def Emission.Holds {crates : Crates} (emission : Emission crates) (chunks : List Chunk) :
    Prop :=
  ∀ chunk ∈ chunks, emission.records[chunk.number]? = some chunk.record

section

variable {crates : Crates} {emission : Emission crates} {chunks : List Chunk}

theorem Emission.holds_chunksOf {pool : List (Text × Text)}
    (own : ∀ record ∈ Grouping.membersOf (recordGroup crates) pool emission.baseKey,
      record ∈ emission.records) :
    emission.Holds (chunksOf crates pool.zipIdx emission.baseKey) := by
  intro chunk member
  have fromPool : chunk.record ∈ emission.records := by
    apply own
    rw [← chunksOf_records]
    exact List.mem_map_of_mem member
  obtain ⟨numbered, -, rfl⟩ := List.mem_map.mp member
  obtain ⟨index, stored, placed⟩ := Emission.placeRecord_of_mem fromPool
  have sameIndex : (chunkAt crates numbered).index = index := by
    have placedHere : placeRecord crates numbered.1 = .chunk emission.baseKey index := placed
    simp [chunkAt, placedHere]
  rw [Chunk.number, sameIndex]
  exact stored

theorem Emission.Holds.texts (holds : emission.Holds chunks) :
    ChunksOfTexts emission.texts chunks := by
  intro chunk member
  rw [Emission.texts, List.getElem?_map, holds chunk member]
  rfl

theorem Emission.Holds.nodup_iff (holds : emission.Holds chunks) :
    (chunks.map Chunk.number).Nodup ↔ (chunks.map Chunk.record).Nodup := by
  rw [List.Nodup, List.Nodup, List.pairwise_map, List.pairwise_map]
  apply List.Pairwise.iff_of_mem
  intro left right leftMember rightMember
  have leftStored := holds left leftMember
  have rightStored := holds right rightMember
  apply not_congr
  constructor
  · intro sameNumber
    rw [sameNumber, rightStored] at leftStored
    exact (Option.some.inj leftStored).symm
  · intro sameRecord
    rw [← sameRecord, ← leftStored] at rightStored
    have inside := (List.getElem?_eq_some_iff.mp leftStored).1
    exact (List.getElem?_inj inside emission.records_nodup).mp rightStored.symm

private theorem filterMap_range_getElem? {α : Type} (values : List α) (count : Nat) :
    (List.range count).filterMap (values[·]?) = values.take count := by
  induction count with
  | zero => rfl
  | succ count ih =>
      rw [List.range_succ, List.filterMap_append, ih, List.take_add_one]
      cases here : values[count]? <;> simp [here]

/-- The chunks are complete exactly when their records are the first ones. -/
theorem Emission.Holds.complete_iff (holds : emission.Holds chunks) :
    Complete chunks ↔ (chunks.map Chunk.record).Perm (emission.records.take chunks.length) := by
  unfold Complete
  constructor
  · intro complete
    have fromNumbers : (chunks.map Chunk.number).filterMap (emission.records[·]?) =
        chunks.map Chunk.record := by
      rw [List.filterMap_map, ← List.filterMap_eq_map]
      exact List.filterMap_congr holds
    rw [← fromNumbers, ← filterMap_range_getElem?]
    exact complete.filterMap _
  · intro first
    have enough : chunks.length ≤ emission.records.length := by
      have sameLength := first.length_eq
      rw [List.length_map, List.length_take] at sameLength
      omega
    have fromRecords : (chunks.map Chunk.record).map (emission.records.idxOf ·) =
        chunks.map Chunk.number := by
      rw [List.map_map]
      apply List.map_congr_left
      intro chunk member
      obtain ⟨inside, stored⟩ := List.getElem?_eq_some_iff.mp (holds chunk member)
      rw [Function.comp_apply, ← stored]
      exact emission.records_nodup.idxOf_getElem _ inside
    have ordered : (emission.records.take chunks.length).map (emission.records.idxOf ·) =
        List.range chunks.length := by
      apply List.ext_getElem
      · simp [enough]
      · intro position inside _
        rw [List.getElem_map, List.getElem_take, List.getElem_range]
        exact emission.records_nodup.idxOf_getElem _ _
    rw [← fromRecords, ← ordered]
    exact first.map _

theorem Emission.Holds.result_of_complete (holds : emission.Holds chunks)
    (complete : Complete chunks) (encoding : Option Encoding) :
    (decodeChunks crates encoding).result chunks =
      decodePayload crates
        (Utf8.encode (emission.texts.take chunks.length).flatten) encoding := by
  rw [result_decodeChunks, checkOrder_of_complete complete,
    joined_of_complete holds.texts complete]
  rfl

end

/-- The output for a pool whose records are all of one group. -/
theorem decodeEntries_of_one_group (crates : Crates) (order : HashOrder)
    {pool : List (Text × Text)} {base : Text} (nonempty : pool ≠ [])
    (grouped : ∀ record ∈ pool, recordGroup crates record = some base) :
    decodeEntries crates order pool =
      match groupResult crates pool.zipIdx base with
      | .ok diagnostic => [.diagnostic diagnostic]
      | .error error => pool.map fun record =>
          .raw { key := record.1, value := record.2, error := some error } := by
  have members : Grouping.membersOf (groupKey crates) pool.zipIdx base = pool.zipIdx := by
    apply Grouping.membersOf_eq_self
    intro numbered member
    exact grouped numbered.1 (List.fst_mem_of_mem_zipIdx member)
  rw [decodeEntries_eq]
  cases outcome : groupResult crates pool.zipIdx base with
  | ok diagnostic =>
      have first : (chunksOf crates pool.zipIdx base).head?.map Chunk.position = some 0 := by
        rw [head_position_eq, members]
        cases pool with
        | nil => exact absurd rfl nonempty
        | cons record rest => rfl
      have decoded := flatMap_contribution_of_decoded (zipIdx_increasing pool) outcome first
      rw [members] at decoded
      rw [decoded]
      rfl
  | error error =>
      have failed := flatMap_contribution_of_failed outcome
      rw [members] at failed
      have records : pool = (chunksOf crates pool.zipIdx base).map Chunk.record := by
        rw [chunksOf_records, Grouping.membersOf_eq_self (recordGroup crates) grouped]
      rw [failed, List.map_map]
      dsimp only
      conv_rhs => rw [records, List.map_map]
      rfl

/-! ## All records of an emission -/

namespace Emission

variable {crates : Crates}

/-- What the reader makes of the records of an emission when it has them all. -/
def decoded (emission : Emission crates) : Except DecodeError Diagnostic :=
  match emission.readTimestamp with
  | none => .error .malformed
  | some timestamp =>
      (decodePayload crates (Utf8.encode emission.texts.flatten)
        emission.diagnostic.key.encoding).map
          (emission.diagnostic.restored timestamp emission.durationPrecision.cut)

/-- A pool with all records of the emission, in any order and among others. -/
theorem groupResult_of_all {emission : Emission crates} {pool : List (Text × Text)}
    (all : (Grouping.membersOf (recordGroup crates) pool emission.baseKey).Perm
      emission.records) :
    groupResult crates pool.zipIdx emission.baseKey = emission.decoded := by
  have holds : emission.Holds (chunksOf crates pool.zipIdx emission.baseKey) :=
    holds_chunksOf fun record member => all.mem_iff.mp member
  have arrived := (chunksOf_records crates pool emission.baseKey).symm ▸ all
  have count : (chunksOf crates pool.zipIdx emission.baseKey).length =
      emission.records.length := by
    rw [← arrived.length_eq, List.length_map]
  have complete : Complete (chunksOf crates pool.zipIdx emission.baseKey) := by
    rw [holds.complete_iff, count, List.take_length]
    exact arrived
  have sameCount : emission.texts.length = emission.records.length := by
    simp [Emission.texts]
  unfold groupResult decoded
  rw [result_decodeGroup, holds.result_of_complete complete, count, ← sameCount,
    List.take_length]

theorem decodeEntries_of_all {emission : Emission crates} {pool : List (Text × Text)}
    (order : HashOrder) (all : pool.Perm emission.records) :
    decodeEntries crates order pool =
      match emission.decoded with
      | .ok diagnostic => [.diagnostic diagnostic]
      | .error error => pool.map fun record =>
          .raw { key := record.1, value := record.2, error := some error } := by
  have grouped : ∀ record ∈ pool, recordGroup crates record = some emission.baseKey :=
    fun record member => recordGroup_of_mem (all.mem_iff.mp member)
  have nonempty : pool ≠ [] := by
    intro empty
    rw [empty] at all
    exact emission.records_ne_nil all.symm.eq_nil
  rw [decodeEntries_of_one_group crates order nonempty grouped, groupResult_of_all]
  rw [Grouping.membersOf_eq_self (recordGroup crates) grouped]
  exact all

/-- Decoding fails on the timestamp alone. -/
theorem decoded_eq {emission : Emission crates} (codecs : crates.Codecs) :
    ∃ payload : DiagnosticPayload,
      payload.contents = emission.diagnostic.payload.contents ∧
        payload.isText = emission.diagnostic.key.encoding.isNone ∧
          emission.decoded =
            (okOr emission.readTimestamp DecodeError.malformed).map fun timestamp =>
              emission.diagnostic.restored timestamp emission.durationPrecision.cut payload := by
  obtain ⟨vmId, value, parts, -, framing, -⟩ := emission.shape
  obtain ⟨-, payload, decoded, sameContents, form⟩ :=
    decodePayload_encodePayload codecs parts.encoded
  refine ⟨payload, sameContents, form, ?_⟩
  unfold Emission.decoded
  rw [framing.joined, decoded]
  cases emission.readTimestamp <;> rfl

theorem readTimestamp_isSome_iff (rfc3339 : crates.Rfc3339)
    (emission : Emission crates) :
    emission.readTimestamp.isSome ↔
      emission.diagnostic.key.timestamp.FourDigitYear := by
  unfold readTimestamp DateTime.FourDigitYear
  constructor
  · intro read
    by_contra expanded
    have outside : emission.diagnostic.key.timestamp.year < 0 ∨
        9999 < emission.diagnostic.key.timestamp.year := by omega
    have refused := rfc3339.parse_signed _ (rfc3339.format_signed
      emission.diagnostic.key.timestamp emission.timestampPrecision.secondsFormat outside)
    rw [refused] at read
    cases read
  · intro fourDigits
    cases leapSecond : emission.diagnostic.key.timestamp.isLeapSecond with
    | false =>
        rw [rfc3339.parse_format _ _ fourDigits.1 fourDigits.2 leapSecond]
        rfl
    | true => exact rfc3339.parse_leapSecond _ _ fourDigits.1 fourDigits.2 leapSecond

/-- By itself, an emission is read back exactly when its timestamp is. -/
theorem fourDigitYear_of_decoded (rfc3339 : crates.Rfc3339)
    {emission : Emission crates} {diagnostic : Diagnostic}
    (decoded : emission.decoded = .ok diagnostic) :
    emission.diagnostic.key.timestamp.FourDigitYear := by
  rw [← emission.readTimestamp_isSome_iff rfc3339]
  unfold Emission.decoded at decoded
  cases read : emission.readTimestamp with
  | none => simp [read] at decoded
  | some timestamp => rfl

theorem decoded_of_fourDigitYear (rfc3339 : crates.Rfc3339)
    (codecs : crates.Codecs) {emission : Emission crates}
    (fourDigits : emission.diagnostic.key.timestamp.FourDigitYear) :
    ∃ diagnostic, emission.decoded = .ok diagnostic := by
  have read := (emission.readTimestamp_isSome_iff rfc3339).mpr fourDigits
  obtain ⟨timestamp, found⟩ := Option.isSome_iff_exists.mp read
  obtain ⟨payload, -, -, decoded⟩ := emission.decoded_eq codecs
  rw [found] at decoded
  exact ⟨_, decoded⟩

end Emission

end AzureInit.Diagnostics
