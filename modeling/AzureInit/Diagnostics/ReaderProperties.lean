import AzureInit.Foundation.Grouping
import AzureInit.Diagnostics.Reader

/-! What the reader's scan and its group loop compute together: every record gives
its own output at its own position, whatever the order of the hash map. -/

set_option autoImplicit false

namespace AzureInit.Diagnostics

open Foundation

/-! ## Decoding a group -/

/-- The decoder's result on the chunks of a group. -/
def ChunkDecoder.result {α : Type} (decoder : ChunkDecoder α) (chunks : List Chunk) :
    Except DecodeError α :=
  (decoder.run.run chunks).1

/-- The chunks in the order that the decoder leaves behind. -/
def ChunkDecoder.left {α : Type} (decoder : ChunkDecoder α) (chunks : List Chunk) :
    List Chunk :=
  (decoder.run.run chunks).2

section

variable {α β : Type} (chunks : List Chunk)

@[simp] theorem result_pure (value : α) :
    (pure value : ChunkDecoder α).result chunks = .ok value := rfl

@[simp] theorem left_pure (value : α) :
    (pure value : ChunkDecoder α).left chunks = chunks := rfl

@[simp] theorem result_throw (error : DecodeError) :
    (throw error : ChunkDecoder α).result chunks = .error error := rfl

@[simp] theorem left_throw (error : DecodeError) :
    (throw error : ChunkDecoder α).left chunks = chunks := rfl

@[simp] theorem result_get : (get : ChunkDecoder (List Chunk)).result chunks = .ok chunks := rfl

@[simp] theorem left_get : (get : ChunkDecoder (List Chunk)).left chunks = chunks := rfl

@[simp] theorem result_modify (change : List Chunk → List Chunk) :
    (modify change : ChunkDecoder PUnit).result chunks = .ok ⟨⟩ := rfl

@[simp] theorem left_modify (change : List Chunk → List Chunk) :
    (modify change : ChunkDecoder PUnit).left chunks = change chunks := rfl

@[simp] theorem result_ofExcept (value : Except DecodeError α) :
    (ofExcept value : ChunkDecoder α).result chunks = value := by cases value <;> rfl

@[simp] theorem left_ofExcept (value : Except DecodeError α) :
    (ofExcept value : ChunkDecoder α).left chunks = chunks := by cases value <;> rfl

theorem result_ite (condition : Prop) [Decidable condition] (yes no : ChunkDecoder α) :
    (if condition then yes else no).result chunks =
      if condition then yes.result chunks else no.result chunks := by split <;> rfl

theorem left_ite (condition : Prop) [Decidable condition] (yes no : ChunkDecoder α) :
    (if condition then yes else no).left chunks =
      if condition then yes.left chunks else no.left chunks := by split <;> rfl

theorem result_bind (first : ChunkDecoder α) (next : α → ChunkDecoder β) :
    (first >>= next).result chunks =
      (first.result chunks).bind fun value => (next value).result (first.left chunks) := by
  unfold ChunkDecoder.result ChunkDecoder.left
  simp only [ExceptT.run_bind, StateT.run_bind]
  rcases first.run.run chunks with ⟨outcome, left⟩
  cases outcome <;> rfl

/-- What sequenced decoders leave behind is left by the last one that runs. -/
theorem left_bind (first : ChunkDecoder α) (next : α → ChunkDecoder β) :
    (first >>= next).left chunks =
      match first.result chunks with
      | .ok value => (next value).left (first.left chunks)
      | .error _ => first.left chunks := by
  unfold ChunkDecoder.result ChunkDecoder.left
  simp only [ExceptT.run_bind, StateT.run_bind]
  rcases first.run.run chunks with ⟨outcome, left⟩
  cases outcome <;> rfl

end

/-- A decoder that changes the order of its chunks at most. -/
def ChunkDecoder.Permutes {α : Type} (decoder : ChunkDecoder α) : Prop :=
  ∀ chunks : List Chunk, (decoder.left chunks).Perm chunks

theorem ChunkDecoder.Permutes.bind {α β : Type} {first : ChunkDecoder α}
    {next : α → ChunkDecoder β} (firstPermutes : first.Permutes)
    (nextPermutes : ∀ value : α, (next value).Permutes) : (first >>= next).Permutes := by
  intro chunks
  rw [left_bind]
  cases first.result chunks with
  | ok value => exact (nextPermutes value _).trans (firstPermutes chunks)
  | error error => exact firstPermutes chunks

def sortChunks (chunks : List Chunk) : List Chunk := chunks.insertionSort (·.index ≤ ·.index)

/-- The checks on sorted chunks. -/
def checkOrder (chunks : List Chunk) : Except DecodeError Unit :=
  if (chunks.zip chunks.tail).any fun pair => pair.1.index == pair.2.index then
    .error .duplicateChunk
  else if chunks.zipIdx.any fun (chunk, expected) => chunk.index.toNat != expected then
    .error .incompleteGroup
  else .ok ()

@[simp] theorem result_orderChunks (chunks : List Chunk) :
    orderChunks.result chunks = checkOrder (sortChunks chunks) := by
  simp only [orderChunks, result_bind, result_modify, result_get, left_modify, left_get,
    Except.bind, result_ite, result_throw, result_pure]
  rfl

@[simp] theorem left_orderChunks (chunks : List Chunk) :
    orderChunks.left chunks = sortChunks chunks := by
  simp only [orderChunks, left_bind, result_modify, result_get, left_modify, left_get,
    left_ite, left_throw, left_pure, ite_self]
  rfl

theorem orderChunks_permutes : orderChunks.Permutes := by
  intro chunks
  rw [left_orderChunks]
  exact List.perm_insertionSort _ chunks

theorem decodeChunks_permutes (crates : Crates) (encoding : Option Encoding) :
    (decodeChunks crates encoding).Permutes := by
  apply orderChunks_permutes.bind
  intro _
  apply ChunkDecoder.Permutes.bind
  · exact fun chunks => by simp
  · exact fun value chunks => by simp

theorem decodeWithHeader_permutes (crates : Crates) (header : DiagHeader) :
    (decodeWithHeader crates header).Permutes := by
  have payloadFirst : ∀ next : DiagnosticPayload → Diagnostic,
      (do
        let payload ← decodeChunks crates header.key.encoding
        return next payload : ChunkDecoder Diagnostic).Permutes := by
    intro next
    exact (decodeChunks_permutes crates header.key.encoding).bind fun value chunks => by simp
  unfold decodeWithHeader
  dsimp only
  split
  · exact payloadFirst _
  · split
    · split
      · exact payloadFirst _
      · exact fun chunks => by simp
    · split
      · exact payloadFirst _
      · exact fun chunks => by simp

theorem decodeDiagGroup_permutes (crates : Crates) (base : Text) :
    (decodeDiagGroup crates base).Permutes := by
  apply ChunkDecoder.Permutes.bind
  · exact fun chunks => by simp
  · exact decodeWithHeader_permutes crates

theorem decodeGroup_permutes (crates : Crates) (base : Text) :
    (decodeGroup crates base).Permutes := by
  unfold decodeGroup
  split
  · apply orderChunks_permutes.bind
    intro _
    apply ChunkDecoder.Permutes.bind
    · exact fun chunks => by simp
    · exact fun value chunks => by simp
  · exact decodeDiagGroup_permutes crates base

/-! ## The scan -/

/-- A record with its position in the pool. -/
abbrev Numbered : Type := (Text × Text) × Nat

def Numbered.raw (numbered : Numbered) : RawKeyValue :=
  { key := numbered.1.1, value := numbered.1.2, error := none }

/-- The base key of the group a record belongs to. -/
def recordGroup (crates : Crates) (record : Text × Text) : Option Text :=
  match placeRecord crates record with
  | .entry _ => none
  | .chunk base _ => some base

def groupKey (crates : Crates) (numbered : Numbered) : Option Text :=
  recordGroup crates numbered.1

/-- A record as a chunk of its group. -/
def chunkAt (crates : Crates) (numbered : Numbered) : Chunk where
  position := numbered.2
  index :=
    match placeRecord crates numbered.1 with
    | .entry _ => 0
    | .chunk _ index => index
  raw := numbered.raw

/-- The chunks of a base key, in pool order. -/
def chunksOf (crates : Crates) (numbered : List Numbered) (base : Text) : List Chunk :=
  (Grouping.membersOf (groupKey crates) numbered base).map (chunkAt crates)

/-- What the scan outputs for a record outside every group. -/
def singleEntries (crates : Crates) (numbered : Numbered) : List (Nat × Entry) :=
  match placeRecord crates numbered.1 with
  | .entry entry => [(numbered.2, entry)]
  | .chunk _ _ => []

/-- The group made of chunks in pool order. -/
def ChunkGroup.of : List Chunk → Option ChunkGroup
  | [] => none
  | first :: rest => some { firstPosition := first.position, chunks := first :: rest }

theorem ChunkGroup.of_append_singleton (chunks : List Chunk) (chunk : Chunk) :
    ChunkGroup.of (chunks ++ [chunk]) =
      let group := (ChunkGroup.of chunks).getD { firstPosition := chunk.position, chunks := [] }
      some { group with chunks := group.chunks ++ [chunk] } := by
  cases chunks <;> rfl

theorem ChunkGroup.of_eq_some {chunks : List Chunk} {group : ChunkGroup}
    (made : ChunkGroup.of chunks = some group) :
    group.chunks = chunks ∧ chunks.head?.map Chunk.position = some group.firstPosition := by
  cases chunks with
  | nil => cases made
  | cons first rest =>
      cases made
      exact ⟨rfl, rfl⟩

/-- After a scan the output holds the single records and the map all chunks. -/
structure Scan.Covers (crates : Crates) (scan : Scan) (numbered : List Numbered) : Prop where
  entries : scan.entries = numbered.flatMap (singleEntries crates)
  groups : ∀ base : Text,
    scan.groups.lookup base = ChunkGroup.of (chunksOf crates numbered base)

theorem chunksOf_append_singleton (crates : Crates) (numbered : List Numbered)
    (record : Numbered) (base : Text) :
    chunksOf crates (numbered ++ [record]) base =
      if groupKey crates record = some base then
        chunksOf crates numbered base ++ [chunkAt crates record]
      else chunksOf crates numbered base := by
  unfold chunksOf
  rw [Grouping.membersOf_append]
  split
  · rename_i found
    simp [Grouping.membersOf, found]
  · rename_i other
    simp [Grouping.membersOf, other]

theorem scanRecord_covers {crates : Crates} {scan : Scan} {numbered : List Numbered}
    (covers : scan.Covers crates numbered) (record : Numbered) :
    (scanRecord crates scan record).Covers crates (numbered ++ [record]) := by
  unfold scanRecord
  cases placed : placeRecord crates record.1 with
  | entry entry =>
      have ungrouped : groupKey crates record = none := by simp [groupKey, recordGroup, placed]
      constructor
      · simp [placed, covers.entries, singleEntries]
      · intro base
        simp [placed, covers.groups, chunksOf_append_singleton, ungrouped]
  | chunk base index =>
      have grouped : groupKey crates record = some base := by simp [groupKey, recordGroup, placed]
      have made : chunkAt crates record =
          { position := record.2, index, raw := record.raw } := by
        simp [chunkAt, placed]
      constructor
      · simp [placed, covers.entries, singleEntries]
      · intro other
        by_cases same : other = base
        · subst same
          simp only [placed, pushChunk, AList.lookup_insert, covers.groups,
            chunksOf_append_singleton, grouped, ↓reduceIte, made,
            ChunkGroup.of_append_singleton]
          rfl
        · simp [placed, pushChunk, AList.lookup_insert_ne same, covers.groups,
            chunksOf_append_singleton, grouped, Ne.symm same]

theorem scanRecords_covers (crates : Crates) (records : List (Text × Text)) :
    (scanRecords crates records).Covers crates records.zipIdx := by
  unfold scanRecords
  induction records.zipIdx using List.reverseRecOn with
  | nil => exact ⟨rfl, fun base => rfl⟩
  | append_singleton numbered record ih =>
      rw [List.foldl_append]
      exact scanRecord_covers ih record

/-! ## The whole output -/

/-- The outcome of decoding all chunks of a base key. -/
def groupResult (crates : Crates) (numbered : List Numbered) (base : Text) :
    Except DecodeError Diagnostic :=
  (decodeGroup crates base).result (chunksOf crates numbered base)

/-- The output that stands at a record's own position. -/
def contribution (crates : Crates) (numbered : List Numbered) (record : Numbered) :
    List (Nat × Entry) :=
  match placeRecord crates record.1 with
  | .entry entry => [(record.2, entry)]
  | .chunk base _ =>
      match groupResult crates numbered base with
      | .ok diagnostic =>
          if (chunksOf crates numbered base).head?.map Chunk.position = some record.2 then
            [(record.2, .diagnostic diagnostic)]
          else []
      | .error error => [(record.2, .raw (record.raw.withError error))]

theorem groupKey_eq_some {crates : Crates} {record : Numbered} {base : Text}
    (grouped : groupKey crates record = some base) :
    ∃ index, placeRecord crates record.1 = .chunk base index := by
  unfold groupKey recordGroup at grouped
  cases placed : placeRecord crates record.1 with
  | entry entry => simp [placed] at grouped
  | chunk other index =>
      rw [placed] at grouped
      cases grouped
      exact ⟨index, rfl⟩

theorem contribution_of_ungrouped {crates : Crates} {numbered : List Numbered}
    {record : Numbered} (ungrouped : groupKey crates record = none) :
    contribution crates numbered record = singleEntries crates record := by
  unfold groupKey recordGroup at ungrouped
  unfold contribution singleEntries
  cases placed : placeRecord crates record.1 with
  | entry entry => rfl
  | chunk base index => simp [placed] at ungrouped

theorem singleEntries_of_grouped {crates : Crates} {record : Numbered} {base : Text}
    (grouped : groupKey crates record = some base) : singleEntries crates record = [] := by
  obtain ⟨index, placed⟩ := groupKey_eq_some grouped
  simp [singleEntries, placed]

theorem contribution_of_grouped {crates : Crates} {numbered : List Numbered}
    {record : Numbered} {base : Text} (grouped : groupKey crates record = some base) :
    contribution crates numbered record =
      match groupResult crates numbered base with
      | .ok diagnostic =>
          if (chunksOf crates numbered base).head?.map Chunk.position = some record.2 then
            [(record.2, .diagnostic diagnostic)]
          else []
      | .error error => [(record.2, .raw (record.raw.withError error))] := by
  obtain ⟨index, placed⟩ := groupKey_eq_some grouped
  simp [contribution, placed]

/-- Each record stands for one output at most, at its own position. -/
theorem contribution_own (crates : Crates) (numbered : List Numbered) (record : Numbered) :
    (contribution crates numbered record).length ≤ 1 ∧
      ∀ output ∈ contribution crates numbered record, output.1 = record.2 := by
  unfold contribution
  split
  · simp
  · split
    · split <;> simp
    · simp

theorem zipIdx_increasing {α : Type} (records : List α) :
    records.zipIdx.Pairwise (·.2 < ·.2) := by
  rw [← List.pairwise_map (f := Prod.snd) (R := (· < ·)), List.zipIdx_map_snd]
  exact List.pairwise_lt_range'

theorem groupEntries_eq (crates : Crates) (base : Text) (group : ChunkGroup) :
    groupEntries crates base group =
      match (decodeGroup crates base).result group.chunks with
      | .ok diagnostic => [(group.firstPosition, .diagnostic diagnostic)]
      | .error error => ((decodeGroup crates base).left group.chunks).map fun chunk =>
          (chunk.position, .raw (chunk.raw.withError error)) := by
  unfold groupEntries ChunkDecoder.result ChunkDecoder.left
  cases (decodeGroup crates base).run.run group.chunks
  rfl

theorem members_increasing {crates : Crates} {numbered : List Numbered}
    (increasing : numbered.Pairwise (·.2 < ·.2)) (base : Text) :
    (Grouping.membersOf (groupKey crates) numbered base).Pairwise (·.2 < ·.2) :=
  increasing.sublist (Grouping.membersOf_sublist (groupKey crates) numbered base)

theorem head_position_eq (crates : Crates) (numbered : List Numbered) (base : Text) :
    (chunksOf crates numbered base).head?.map Chunk.position =
      (Grouping.membersOf (groupKey crates) numbered base).head?.map Prod.snd := by
  unfold chunksOf
  rw [List.head?_map, Option.map_map]
  rfl

/-- Of the members of a decoded group only the first one contributes. -/
theorem flatMap_contribution_of_decoded {crates : Crates} {numbered : List Numbered}
    {base : Text} {diagnostic : Diagnostic} {position : Nat}
    (increasing : numbered.Pairwise (·.2 < ·.2))
    (decoded : groupResult crates numbered base = .ok diagnostic)
    (first : (chunksOf crates numbered base).head?.map Chunk.position = some position) :
    (Grouping.membersOf (groupKey crates) numbered base).flatMap
      (contribution crates numbered) = [(position, .diagnostic diagnostic)] := by
  have contributes : ∀ record ∈ Grouping.membersOf (groupKey crates) numbered base,
      contribution crates numbered record =
        if position = record.2 then [(position, .diagnostic diagnostic)] else [] := by
    intro record member
    rw [contribution_of_grouped ((Grouping.mem_membersOf _).mp member).2, decoded, first]
    simp only [Option.some.injEq]
    split
    · rename_i samePosition
      rw [samePosition]
    · rfl
  rw [List.flatMap_congr contributes]
  rw [head_position_eq] at first
  exact Grouping.flatMap_at_head Prod.snd (members_increasing increasing base) first _

/-- All members of a group that fails to decode contribute with its error. -/
theorem flatMap_contribution_of_failed {crates : Crates} {numbered : List Numbered}
    {base : Text} {error : DecodeError}
    (failed : groupResult crates numbered base = .error error) :
    (Grouping.membersOf (groupKey crates) numbered base).flatMap
        (contribution crates numbered) =
      (chunksOf crates numbered base).map fun chunk =>
        (chunk.position, .raw (chunk.raw.withError error)) := by
  have contributes : ∀ record ∈ Grouping.membersOf (groupKey crates) numbered base,
      contribution crates numbered record =
        [(record.2, .raw (record.raw.withError error))] := by
    intro record member
    rw [contribution_of_grouped ((Grouping.mem_membersOf _).mp member).2, failed]
  rw [List.flatMap_congr contributes, chunksOf, List.map_map, ← List.map_eq_flatMap]
  rfl

/-- The output of a group is what its members contribute. -/
theorem groupEntries_perm {crates : Crates} {numbered : List Numbered} {base : Text}
    {group : ChunkGroup} (increasing : numbered.Pairwise (·.2 < ·.2))
    (made : ChunkGroup.of (chunksOf crates numbered base) = some group) :
    (groupEntries crates base group).Perm
      ((Grouping.membersOf (groupKey crates) numbered base).flatMap
        (contribution crates numbered)) := by
  obtain ⟨sameChunks, first⟩ := ChunkGroup.of_eq_some made
  rw [groupEntries_eq, sameChunks]
  cases outcome : (decodeGroup crates base).result (chunksOf crates numbered base) with
  | ok diagnostic =>
      rw [flatMap_contribution_of_decoded increasing outcome first]
  | error error =>
      rw [flatMap_contribution_of_failed outcome]
      exact (decodeGroup_permutes crates base _).map _

/-- The groups of the map in any order, and what their members contribute. -/
theorem arranged_flatMap_perm {crates : Crates} {scan : Scan} {numbered : List Numbered}
    (order : HashOrder) (increasing : numbered.Pairwise (·.2 < ·.2))
    (covers : scan.Covers crates numbered) :
    ((order.arrange scan.groups.entries).flatMap fun entry =>
        groupEntries crates entry.1 entry.2).Perm
      ((scan.groups.keys.flatMap (Grouping.membersOf (groupKey crates) numbered)).flatMap
        (contribution crates numbered)) := by
  apply ((order.perm scan.groups.entries).flatMap_right _).trans
  rw [List.flatMap_assoc, AList.keys, List.keys, List.flatMap_map]
  apply List.Perm.flatMap_left
  intro entry member
  have found : scan.groups.lookup entry.1 = some entry.2 :=
    AList.mem_lookup_iff.mpr member
  rw [covers.groups] at found
  exact groupEntries_perm increasing found

/-- The reader's output: every record contributes at its own position. -/
theorem decodeEntries_eq (crates : Crates) (order : HashOrder)
    (records : List (Text × Text)) :
    decodeEntries crates order records =
      (records.zipIdx.flatMap (contribution crates records.zipIdx)).map (·.2) := by
  have increasing := zipIdx_increasing records
  have covers := scanRecords_covers crates records
  unfold decodeEntries
  generalize scanRecords crates records = scan at covers
  generalize records.zipIdx = numbered at increasing covers
  apply congrArg (List.map Prod.snd)
  apply Grouping.insertionSort_eq_of_perm Prod.fst
  · have covered : ∀ record ∈ numbered, ∀ base, groupKey crates record = some base →
        base ∈ scan.groups.keys := by
      intro record member base grouped
      apply AList.mem_keys.mp
      rw [← AList.lookup_isSome, covers.groups]
      have inGroup : chunkAt crates record ∈ chunksOf crates numbered base :=
        List.mem_map_of_mem ((Grouping.mem_membersOf _).mpr ⟨member, grouped⟩)
      cases chunks : chunksOf crates numbered base with
      | nil =>
          rw [chunks] at inGroup
          cases inGroup
      | cons first rest => rfl
    have regrouped := Grouping.perm_ungrouped_append_members (groupKey crates)
      scan.groups.nodupKeys covered
    have singles : scan.entries =
        (Grouping.ungrouped (groupKey crates) numbered).flatMap
          (contribution crates numbered) := by
      rw [covers.entries, Grouping.flatMap_ungrouped (groupKey crates)
        fun record _ base grouped => singleEntries_of_grouped grouped]
      apply List.flatMap_congr
      intro record member
      exact (contribution_of_ungrouped ((Grouping.mem_ungrouped _).mp member).2).symm
    rw [singles]
    apply (arranged_flatMap_perm order increasing covers).append_left _ |>.trans
    rw [← List.flatMap_append]
    exact regrouped.symm.flatMap_right _
  · exact Grouping.flatMap_pairwise_position Prod.snd _ increasing
      (fun record _ => (contribution_own crates numbered record).2)
      (fun record _ => (contribution_own crates numbered record).1)

end AzureInit.Diagnostics
