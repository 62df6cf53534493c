import AzureInit.Diagnostics.Demultiplexing

/-! The reader and the order of the records in a pool. Records that change their places
change the places of what is read, and nothing else; what is read of two pools without a
common group is what is read of each. -/

set_option autoImplicit false

namespace AzureInit.Diagnostics

open Foundation

/-! ## Chunks without their places -/

/-- What a decoder reads of a chunk. -/
def Chunk.content (chunk : Chunk) : UInt64 × Text := (chunk.index, chunk.raw.value)

def SameContents (left right : List Chunk) : Prop :=
  (left.map Chunk.content).Perm (right.map Chunk.content)

variable {left right : List Chunk}

theorem SameContents.numbers (same : SameContents left right) :
    (left.map Chunk.number).Perm (right.map Chunk.number) := by
  have permuted := same.map fun content => content.1.toNat
  rwa [List.map_map, List.map_map] at permuted

theorem SameContents.complete_iff (same : SameContents left right) :
    Complete left ↔ Complete right := by
  have count : left.length = right.length := by simpa using same.length_eq
  unfold Complete
  rw [count]
  exact ⟨same.numbers.symm.trans, same.numbers.trans⟩

theorem SameContents.checkOrder_eq (same : SameContents left right) :
    checkOrder (sortChunks left) = checkOrder (sortChunks right) := by
  by_cases distinct : (left.map Chunk.number).Nodup
  · have alsoDistinct := same.numbers.nodup_iff.mp distinct
    by_cases complete : Complete left
    · rw [checkOrder_of_complete complete,
        checkOrder_of_complete (same.complete_iff.mp complete)]
    · rw [checkOrder_of_gaps distinct complete,
        checkOrder_of_gaps alsoDistinct (mt same.complete_iff.mpr complete)]
  · rw [checkOrder_of_duplicates distinct,
      checkOrder_of_duplicates (mt same.numbers.nodup_iff.mpr distinct)]

theorem nodup_of_checkOrder {chunks : List Chunk}
    (checked : checkOrder (sortChunks chunks) = .ok ()) : (chunks.map Chunk.number).Nodup := by
  by_contra duplicates
  rw [checkOrder_of_duplicates duplicates] at checked
  cases checked

/-- Distinct indices leave one order of the contents. -/
theorem SameContents.sorted_eq (same : SameContents left right)
    (distinct : (right.map Chunk.number).Nodup) :
    (sortChunks left).map Chunk.content = (sortChunks right).map Chunk.content := by
  have perm : ((sortChunks left).map Chunk.content).Perm
      ((sortChunks right).map Chunk.content) :=
    ((sortChunks_perm left).map _).trans (same.trans ((sortChunks_perm right).map _).symm)
  apply Grouping.eq_of_perm_of_increasing (fun content => content.1.toNat) perm
  · exact List.pairwise_map.mpr (sortChunks_ordered left)
  · exact List.pairwise_map.mpr (Grouping.pairwise_lt_of_nodup Chunk.number
      (sortChunks_ordered right) (((sortChunks_perm right).map _).nodup_iff.mpr distinct))

/-! ## Decoders without places -/

variable {crates : Crates}

/-- A decoder for which only the contents of the chunks matter. -/
def ChunkDecoder.Placeless {α : Type} (decoder : ChunkDecoder α) : Prop :=
  ∀ left right : List Chunk, SameContents left right → decoder.result left = decoder.result right

theorem ChunkDecoder.Placeless.map {α β : Type} {decoder : ChunkDecoder α}
    (placeless : decoder.Placeless) (f : α → β) :
    (do
      let value ← decoder
      return f value : ChunkDecoder β).Placeless := by
  intro left right same
  rw [result_bind, result_bind, placeless left right same]
  rfl

theorem placeless_const {α : Type} {decoder : ChunkDecoder α} {result : Except DecodeError α}
    (constant : ∀ chunks, decoder.result chunks = result) : decoder.Placeless :=
  fun left right _ => (constant left).trans (constant right).symm

theorem decodeChunks_placeless (encoding : Option Encoding) :
    (decodeChunks crates encoding).Placeless := by
  intro left right same
  rw [result_decodeChunks, result_decodeChunks, same.checkOrder_eq]
  cases checked : checkOrder (sortChunks right) with
  | error error => rfl
  | ok done =>
      have sorted := same.sorted_eq (nodup_of_checkOrder checked)
      have joined := congrArg (List.flatMap Prod.snd) sorted
      rw [List.flatMap_map, List.flatMap_map] at joined
      exact congrArg (fun value => decodePayload crates (Utf8.encode value) encoding) joined

theorem decodeWithHeader_placeless (header : DiagHeader) :
    (decodeWithHeader crates header).Placeless := by
  unfold decodeWithHeader
  dsimp only
  split
  · exact (decodeChunks_placeless _).map _
  · split
    · split
      · exact (decodeChunks_placeless _).map _
      · exact placeless_const fun chunks => result_throw chunks _
    · split
      · exact (decodeChunks_placeless _).map _
      · exact placeless_const fun chunks => result_throw chunks _

theorem decodeGroup_placeless (base : Text) : (decodeGroup crates base).Placeless := by
  unfold decodeGroup
  split
  · intro left right same
    simp only [result_bind, result_orderChunks, left_orderChunks, result_get, left_get,
      result_ofExcept, same.checkOrder_eq]
    cases checked : checkOrder (sortChunks right) with
    | error error => rfl
    | ok done =>
        exact congrArg (CloudInit.decodeChunks crates base)
          (same.sorted_eq (nodup_of_checkOrder checked))
  · intro left right same
    unfold decodeDiagGroup
    rw [result_bind, result_bind, result_ofExcept, result_ofExcept, left_ofExcept, left_ofExcept]
    cases parseDiagHeader crates base with
    | error error => rfl
    | ok header => exact decodeWithHeader_placeless header left right same

/-! ## Groups of a pool -/

/-- The content of a record as a chunk. -/
def recordContent (crates : Crates) (record : Text × Text) : UInt64 × Text :=
  (chunkAt crates (record, 0)).content

theorem chunksOf_contents (numbered : List Numbered) (base : Text) :
    (chunksOf crates numbered base).map Chunk.content =
      (Grouping.membersOf (recordGroup crates) (numbered.map Prod.fst) base).map
        (recordContent crates) := by
  unfold chunksOf Grouping.membersOf
  rw [List.map_map, List.filter_map, List.map_map]
  rfl

theorem groupResult_congr {first second : List Numbered} {base : Text}
    (same : (Grouping.membersOf (recordGroup crates) (first.map Prod.fst) base).Perm
      (Grouping.membersOf (recordGroup crates) (second.map Prod.fst) base)) :
    groupResult crates first base = groupResult crates second base := by
  apply decodeGroup_placeless base
  unfold SameContents
  rw [chunksOf_contents, chunksOf_contents]
  exact same.map _

/-! ## Pools -/

variable {pool other : List (Text × Text)}

/-- What is read of a group. -/
def groupOutput (crates : Crates) (pool : List (Text × Text)) (base : Text) : List Entry :=
  match groupResult crates pool.zipIdx base with
  | .ok diagnostic => [.diagnostic diagnostic]
  | .error error => (Grouping.membersOf (recordGroup crates) pool base).map fun record =>
      .raw { key := record.1, value := record.2, error := some error }

/-- What is read of a record outside every group. -/
def singleOutput (crates : Crates) (record : Text × Text) : List Entry :=
  (singleEntries crates (record, 0)).map Prod.snd

theorem map_singleEntries (record : Numbered) :
    (singleEntries crates record).map Prod.snd = singleOutput crates record.1 := by
  unfold singleOutput singleEntries
  cases placeRecord crates record.1 <;> rfl

/-- The members of a group contribute what is read of it. -/
theorem map_flatMap_members {base : Text} (used : base ∈ pool.filterMap (recordGroup crates)) :
    ((Grouping.membersOf (groupKey crates) pool.zipIdx base).flatMap
        (contribution crates pool.zipIdx)).map Prod.snd = groupOutput crates pool base := by
  unfold groupOutput
  cases decoded : groupResult crates pool.zipIdx base with
  | ok diagnostic =>
      obtain ⟨record, member, grouped⟩ := List.mem_filterMap.mp used
      have inGroup : record ∈ (chunksOf crates pool.zipIdx base).map Chunk.record := by
        rw [chunksOf_records]
        exact (Grouping.mem_membersOf _).mpr ⟨member, grouped⟩
      cases chunks : chunksOf crates pool.zipIdx base with
      | nil =>
          rw [chunks] at inGroup
          cases inGroup
      | cons first rest =>
          have head : (chunksOf crates pool.zipIdx base).head?.map Chunk.position =
              some first.position := by rw [chunks]; rfl
          rw [flatMap_contribution_of_decoded (zipIdx_increasing pool) decoded head]
          rfl
  | error error =>
      rw [flatMap_contribution_of_failed decoded, List.map_map, ← chunksOf_records]
      dsimp only
      rw [List.map_map]
      rfl

/-- What is read of a pool: every record outside the groups, and every group. -/
theorem decodeEntries_perm_groups (order : HashOrder) (pool : List (Text × Text)) :
    (decodeEntries crates order pool).Perm
      ((Grouping.ungrouped (recordGroup crates) pool).flatMap (singleOutput crates) ++
        (pool.filterMap (recordGroup crates)).dedup.flatMap (groupOutput crates pool)) := by
  have regrouped := Grouping.perm_ungrouped_append_dedup (groupKey crates) pool.zipIdx
  have bases : pool.zipIdx.filterMap (groupKey crates) = pool.filterMap (recordGroup crates) := by
    conv_rhs => rw [← List.zipIdx_map_fst 0 pool, List.filterMap_map]
    rfl
  rw [decodeEntries_eq]
  refine ((regrouped.flatMap_right _).map Prod.snd).trans (List.Perm.of_eq ?_)
  rw [List.flatMap_append, List.map_append, bases]
  congr 1
  · rw [← map_fst_ungrouped, List.map_flatMap, List.flatMap_map]
    apply List.flatMap_congr
    intro record ungrouped
    rw [contribution_of_ungrouped ((Grouping.mem_ungrouped _).mp ungrouped).2, map_singleEntries]
  · rw [List.flatMap_assoc, List.map_flatMap]
    apply List.flatMap_congr
    intro base used
    exact map_flatMap_members (List.mem_dedup.mp used)

theorem groupOutput_perm (perm : pool.Perm other) (base : Text) :
    (groupOutput crates pool base).Perm (groupOutput crates other base) := by
  have members := Grouping.membersOf_perm (recordGroup crates) perm base
  have same : groupResult crates pool.zipIdx base = groupResult crates other.zipIdx base := by
    apply groupResult_congr
    rwa [List.zipIdx_map_fst, List.zipIdx_map_fst]
  unfold groupOutput
  rw [same]
  cases groupResult crates other.zipIdx base with
  | ok diagnostic => exact .refl _
  | error error => exact members.map _

/-- Whatever the order of the records and of the hash map, the same entries are read. -/
theorem decodeEntries_perm (perm : pool.Perm other) (order otherOrder : HashOrder) :
    (decodeEntries crates order pool).Perm (decodeEntries crates otherOrder other) := by
  refine (decodeEntries_perm_groups order pool).trans
    (List.Perm.trans (List.Perm.append ?_ ?_) (decodeEntries_perm_groups otherOrder other).symm)
  · exact (perm.filter _).flatMap_right _
  · refine ((perm.filterMap _).dedup.flatMap_right _).trans ?_
    exact List.Perm.flatMap_left _ fun base _ => groupOutput_perm perm base

/-- Records outside every group are read one by one. -/
theorem decodeEntries_of_ungrouped (ungrouped : ∀ record ∈ pool, recordGroup crates record = none)
    (order : HashOrder) : decodeEntries crates order pool = pool.flatMap (singleOutput crates) := by
  have single : ∀ record ∈ pool.zipIdx, (contribution crates pool.zipIdx record).map Prod.snd =
      singleOutput crates record.1 := by
    intro record member
    rw [contribution_of_ungrouped (ungrouped _ (List.fst_mem_of_mem_zipIdx member)),
      map_singleEntries]
  rw [decodeEntries_eq, List.map_flatMap, List.flatMap_congr single]
  conv_rhs => rw [← List.zipIdx_map_fst 0 pool, List.flatMap_map]

/-! ## Pools one behind the other -/

/-- None of the records belongs to a group. -/
def Outside (crates : Crates) (base : Text) (records : List (Text × Text)) : Prop :=
  ∀ record ∈ records, recordGroup crates record ≠ some base

theorem membersOf_outside {base : Text} (outside : Outside crates base pool) (start : Nat) :
    Grouping.membersOf (groupKey crates) (pool.zipIdx start) base = [] :=
  Grouping.membersOf_eq_nil (groupKey crates) fun _ member =>
    outside _ (List.fst_mem_of_mem_zipIdx member)

/-- What a record contributes does not change when records of other groups are appended. -/
theorem contribution_append {earlier later : List Numbered} {record : Numbered}
    (apart : ∀ base, groupKey crates record = some base →
      Grouping.membersOf (groupKey crates) later base = []) :
    contribution crates (earlier ++ later) record = contribution crates earlier record := by
  unfold contribution
  split
  · rfl
  · rename_i base index placed
    have grouped : groupKey crates record = some base := by
      simp [groupKey, recordGroup, placed]
    have same : chunksOf crates (earlier ++ later) base = chunksOf crates earlier base := by
      unfold chunksOf
      rw [Grouping.membersOf_append, apart base grouped, List.append_nil]
    unfold groupResult
    rw [same]

def shift (count : Nat) (record : Numbered) : Numbered := (record.1, count + record.2)

theorem membersOf_shift (count : Nat) (numbered : List Numbered) (base : Text) :
    Grouping.membersOf (groupKey crates) (numbered.map (shift count)) base =
      (Grouping.membersOf (groupKey crates) numbered base).map (shift count) :=
  List.filter_map

/-- A record behind others contributes what it does by itself, at its new place. -/
theorem contribution_shift {earlier numbered : List Numbered} {record : Numbered}
    (apart : ∀ base, groupKey crates record = some base →
      Grouping.membersOf (groupKey crates) earlier base = []) (count : Nat) :
    (contribution crates (earlier ++ numbered.map (shift count)) (shift count record)).map
        Prod.snd = (contribution crates numbered record).map Prod.snd := by
  cases grouped : groupKey crates record with
  | none =>
      have alsoNone : groupKey crates (shift count record) = none := grouped
      rw [contribution_of_ungrouped grouped, contribution_of_ungrouped alsoNone,
        map_singleEntries, map_singleEntries]
      rfl
  | some base =>
      have alsoGrouped : groupKey crates (shift count record) = some base := grouped
      have members : Grouping.membersOf (groupKey crates) (earlier ++ numbered.map (shift count))
          base = (Grouping.membersOf (groupKey crates) numbered base).map (shift count) := by
        rw [Grouping.membersOf_append, apart base grouped, List.nil_append, membersOf_shift]
      have sameResult : groupResult crates (earlier ++ numbered.map (shift count)) base =
          groupResult crates numbered base := by
        apply decodeGroup_placeless base
        unfold SameContents chunksOf
        rw [members, List.map_map, List.map_map, List.map_map]
        exact .refl _
      have head : (chunksOf crates (earlier ++ numbered.map (shift count)) base).head?.map
          Chunk.position = some (shift count record).2 ↔
            (chunksOf crates numbered base).head?.map Chunk.position = some record.2 := by
        rw [head_position_eq, head_position_eq, members, List.head?_map, Option.map_map]
        cases (Grouping.membersOf (groupKey crates) numbered base).head? with
        | none => simp
        | some first => simp [shift]
      rw [contribution_of_grouped grouped, contribution_of_grouped alsoGrouped, sameResult]
      cases groupResult crates numbered base with
      | error error => rfl
      | ok diagnostic =>
          dsimp only
          rw [if_congr head rfl rfl]
          split <;> rfl

/-- What is read of two pools without a common group is what is read of each. -/
theorem decodeEntries_append
    (apart : ∀ record ∈ other, ∀ base, recordGroup crates record = some base →
      Outside crates base pool) (order : HashOrder) :
    decodeEntries crates order (pool ++ other) =
      decodeEntries crates order pool ++ decodeEntries crates order other := by
  have moved : other.zipIdx pool.length = other.zipIdx.map (shift pool.length) :=
    List.zipIdx_eq_map_add
  have before : ∀ record ∈ pool.zipIdx,
      contribution crates (pool.zipIdx ++ other.zipIdx pool.length) record =
        contribution crates pool.zipIdx record := by
    intro record member
    refine contribution_append fun base grouped => Grouping.membersOf_eq_nil _ ?_
    intro later inOther same
    exact apart _ (List.fst_mem_of_mem_zipIdx inOther) base same _
      (List.fst_mem_of_mem_zipIdx member) grouped
  have behind : ∀ record ∈ other.zipIdx,
      (contribution crates (pool.zipIdx ++ other.zipIdx.map (shift pool.length))
        (shift pool.length record)).map Prod.snd =
        (contribution crates other.zipIdx record).map Prod.snd := by
    intro record member
    refine contribution_shift (fun base grouped => ?_) _
    exact membersOf_outside (apart _ (List.fst_mem_of_mem_zipIdx member) base grouped) 0
  rw [decodeEntries_eq, decodeEntries_eq, decodeEntries_eq, List.zipIdx_append, Nat.zero_add,
    List.flatMap_append, List.map_append, List.flatMap_congr before]
  congr 1
  rw [moved, List.flatMap_map, List.map_flatMap, List.map_flatMap]
  exact List.flatMap_congr behind

/-- An emission behind other records is read behind what is read of them. -/
theorem decodeEntries_append_emission {emission : Emission crates} {diagnostic : Diagnostic}
    (outside : Outside crates emission.baseKey pool)
    (decoded : emission.decoded = .ok diagnostic) (order : HashOrder) :
    decodeEntries crates order (pool ++ emission.records) =
      decodeEntries crates order pool ++ [.diagnostic diagnostic] := by
  have apart : ∀ record ∈ emission.records, ∀ base, recordGroup crates record = some base →
      Outside crates base pool := by
    intro record member base grouped
    rw [Emission.recordGroup_of_mem member] at grouped
    exact Option.some.inj grouped ▸ outside
  rw [decodeEntries_append apart, emission.decodeEntries_of_all order (.refl _), decoded]

end AzureInit.Diagnostics
