import AzureInit.Diagnostics.ReaderProperties

/-! The order check on chunks: what it says about the indices of a group, whatever
order they arrived in, and the value that ordered chunks join to. -/

set_option autoImplicit false

namespace AzureInit.Diagnostics

open Foundation

def Chunk.number (chunk : Chunk) : Nat := chunk.index.toNat

theorem sortChunks_perm (chunks : List Chunk) : (sortChunks chunks).Perm chunks :=
  List.perm_insertionSort _ chunks

theorem sortChunks_ordered (chunks : List Chunk) :
    (sortChunks chunks).Pairwise (·.number ≤ ·.number) := by
  have : Std.Total (α := Chunk) (·.index ≤ ·.index) :=
    ⟨fun left right => UInt64.le_total left.index right.index⟩
  have : IsTrans Chunk (·.index ≤ ·.index) := ⟨fun _ _ _ => UInt64.le_trans⟩
  apply (List.pairwise_insertionSort (fun left right : Chunk => left.index ≤ right.index)
    chunks).imp
  intro left right below
  exact UInt64.le_iff_toNat_le.mp below

private theorem adjacent_eq (chunks : List Chunk) :
    ((chunks.zip chunks.tail).any fun pair => pair.1.index == pair.2.index) =
      (chunks.zip chunks.tail).any fun pair => pair.1.number == pair.2.number := by
  congr 1
  funext pair
  rw [Bool.eq_iff_iff, beq_iff_eq, beq_iff_eq]
  exact UInt64.toNat_inj.symm

private theorem zipIdx_any_eq_false_iff (chunks : List Chunk) :
    (chunks.zipIdx.any fun (chunk, expected) => chunk.index.toNat != expected) = false ↔
      chunks.map Chunk.number = List.range chunks.length := by
  rw [List.any_eq_false]
  constructor
  · intro expected
    apply List.ext_getElem
    · simp
    · intro position inside _
      rw [List.length_map] at inside
      have here := expected (chunks[position], position)
        (List.mem_zipIdx_iff_getElem?.mpr (List.getElem?_eq_getElem inside))
      simpa [Chunk.number] using here
  · intro numbered entry member
    have stored := List.mem_zipIdx_iff_getElem?.mp member
    obtain ⟨inside, -⟩ := List.getElem?_eq_some_iff.mp stored
    have here : (chunks.map Chunk.number)[entry.2]? = some entry.2 := by
      rw [numbered]
      exact List.getElem?_range inside
    rw [List.getElem?_map, stored] at here
    simpa [Chunk.number] using here

/-- Chunks with the indices from zero on, each once. -/
def Complete (chunks : List Chunk) : Prop :=
  (chunks.map Chunk.number).Perm (List.range chunks.length)

theorem sorted_numbers_of_complete {chunks : List Chunk} (complete : Complete chunks) :
    (sortChunks chunks).map Chunk.number = List.range chunks.length := by
  have permuted := ((sortChunks_perm chunks).map Chunk.number).trans complete
  have inOrder : ∀ left right : Nat, left ∈ (sortChunks chunks).map Chunk.number →
      right ∈ List.range chunks.length → left ≤ right → right ≤ left → left = right :=
    fun _ _ _ _ => Nat.le_antisymm
  apply List.Perm.eq_of_pairwise inOrder ?_ ?_ permuted
  · rw [List.pairwise_map]
    exact sortChunks_ordered chunks
  · exact List.pairwise_lt_range.imp Nat.le_of_lt

theorem checkOrder_of_complete {chunks : List Chunk} (complete : Complete chunks) :
    checkOrder (sortChunks chunks) = .ok () := by
  have numbers := sorted_numbers_of_complete complete
  have distinct : ((sortChunks chunks).map Chunk.number).Nodup := by
    rw [numbers]
    exact List.nodup_range
  have noDuplicates := (Grouping.adjacent_any_eq_false_iff Chunk.number
    (sortChunks_ordered chunks)).mpr
      (Grouping.pairwise_lt_of_nodup Chunk.number (sortChunks_ordered chunks) distinct)
  have noGaps := (zipIdx_any_eq_false_iff (sortChunks chunks)).mpr (by
    rw [numbers, (sortChunks_perm chunks).length_eq])
  unfold checkOrder
  rw [adjacent_eq, noDuplicates, noGaps]
  rfl

theorem checkOrder_of_duplicates {chunks : List Chunk}
    (duplicates : ¬ (chunks.map Chunk.number).Nodup) :
    checkOrder (sortChunks chunks) = .error .duplicateChunk := by
  have repeated : ((sortChunks chunks).zip (sortChunks chunks).tail).any
      (fun pair => pair.1.number == pair.2.number) = true := by
    rw [← Bool.not_eq_false, Grouping.adjacent_any_eq_false_iff Chunk.number
      (sortChunks_ordered chunks)]
    intro strict
    apply duplicates
    apply (((sortChunks_perm chunks).map Chunk.number).nodup_iff).mp
    rw [List.Nodup, List.pairwise_map]
    exact strict.imp Nat.ne_of_lt
  unfold checkOrder
  rw [adjacent_eq, repeated]
  rfl

theorem checkOrder_of_gaps {chunks : List Chunk}
    (distinct : (chunks.map Chunk.number).Nodup) (gaps : ¬ Complete chunks) :
    checkOrder (sortChunks chunks) = .error .incompleteGroup := by
  have noDuplicates := (Grouping.adjacent_any_eq_false_iff Chunk.number
    (sortChunks_ordered chunks)).mpr
      (Grouping.pairwise_lt_of_nodup Chunk.number (sortChunks_ordered chunks)
        (((sortChunks_perm chunks).map Chunk.number).nodup_iff.mpr distinct))
  have gap : (sortChunks chunks).zipIdx.any
      (fun (chunk, expected) => chunk.index.toNat != expected) = true := by
    rw [← Bool.not_eq_false, zipIdx_any_eq_false_iff, (sortChunks_perm chunks).length_eq]
    intro numbers
    apply gaps
    unfold Complete
    rw [← numbers]
    exact ((sortChunks_perm chunks).map Chunk.number).symm
  unfold checkOrder
  rw [adjacent_eq, noDuplicates, gap]
  rfl

/-! ## The joined value -/

/-- Chunks of one list of texts, each at its own index. -/
def ChunksOfTexts (texts : List Text) (chunks : List Chunk) : Prop :=
  ∀ chunk ∈ chunks, texts[chunk.number]? = some chunk.raw.value

/-- Complete chunks join to the texts in front. -/
theorem joined_of_complete {texts : List Text} {chunks : List Chunk}
    (own : ChunksOfTexts texts chunks) (complete : Complete chunks) :
    (sortChunks chunks).flatMap (·.raw.value) = (texts.take chunks.length).flatten := by
  have numbers := sorted_numbers_of_complete complete
  have values : (sortChunks chunks).map (·.raw.value) = texts.take chunks.length := by
    apply List.ext_getElem?
    intro position
    have numberHere : ((sortChunks chunks)[position]?).map Chunk.number =
        (List.range chunks.length)[position]? := by
      rw [← numbers, List.getElem?_map]
    rw [List.getElem?_map, List.getElem?_take]
    split
    · rename_i inside
      rw [List.getElem?_range inside] at numberHere
      obtain ⟨chunk, stored, number⟩ := Option.map_eq_some_iff.mp numberHere
      have member := (sortChunks_perm chunks).mem_iff.mp (List.mem_of_getElem? stored)
      rw [stored, Option.map_some, ← number, own chunk member]
    · rename_i outside
      have absent : (sortChunks chunks)[position]? = none := by
        rw [List.getElem?_eq_none_iff, (sortChunks_perm chunks).length_eq]
        exact Nat.le_of_not_lt outside
      rw [absent, Option.map_none]
  rw [List.flatMap_def, values]

theorem result_decodeChunks (crates : Crates) (encoding : Option Encoding)
    (chunks : List Chunk) :
    (decodeChunks crates encoding).result chunks =
      (checkOrder (sortChunks chunks)).bind fun _ =>
        decodePayload crates (Utf8.encode ((sortChunks chunks).flatMap (·.raw.value)))
          encoding := by
  simp only [decodeChunks, result_bind, result_orderChunks, left_orderChunks, result_get,
    left_get, result_ofExcept]
  rfl

end AzureInit.Diagnostics
