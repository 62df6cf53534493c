import Mathlib.Tactic
import Mathlib.Data.Vector.Basic

/-! A flat sequence cut into blocks of one fixed width. Reading, splicing,
appending and truncating the sequence at block positions are the corresponding
list operations on the blocks. -/

set_option autoImplicit false

namespace AzureInit.Foundation

namespace Blocks

variable {α : Type} {width : Nat}

/-- The flat sequence of a list of blocks. -/
def image (blocks : List (List.Vector α width)) : List α :=
  blocks.flatMap List.Vector.toList

/-- Replace the elements from an offset on, keeping what lies around them. -/
def splice (elements : List α) (offset : Nat) (data : List α) : List α :=
  elements.take offset ++ data ++ elements.drop (offset + data.length)

/-- The block at a position that lies wholly inside a sequence. -/
def blockAt (elements : List α) (index : Nat)
    (inside : (index + 1) * width ≤ elements.length) : List.Vector α width :=
  ⟨(elements.drop (index * width)).take width, by
    rw [Nat.succ_mul] at inside
    rw [List.length_take, List.length_drop]
    omega⟩

private theorem block_inside {elements : List α} (index : Fin (elements.length / width)) :
    (index + 1) * width ≤ elements.length :=
  Nat.le_trans (Nat.mul_le_mul_right width index.isLt) (Nat.div_mul_le_self _ _)

/-- The whole blocks of a sequence; a partial tail is not part of any block. -/
def wholeBlocks (width : Nat) (elements : List α) : List (List.Vector α width) :=
  List.ofFn fun index : Fin (elements.length / width) =>
    blockAt elements index (block_inside index)

@[simp] theorem toList_blockAt (elements : List α) (index : Nat)
    (inside : (index + 1) * width ≤ elements.length) :
    (blockAt elements index inside).toList = (elements.drop (index * width)).take width := rfl

@[simp] theorem image_nil : image ([] : List (List.Vector α width)) = [] := rfl

@[simp] theorem image_cons (head : List.Vector α width) (tail : List (List.Vector α width)) :
    image (head :: tail) = head.toList ++ image tail := rfl

@[simp] theorem image_append (left right : List (List.Vector α width)) :
    image (left ++ right) = image left ++ image right :=
  List.flatMap_append

@[simp] theorem length_image (blocks : List (List.Vector α width)) :
    (image blocks).length = blocks.length * width := by
  induction blocks with
  | nil => simp
  | cons head tail ih =>
      simp only [image_cons, List.length_append, List.Vector.toList_length, ih,
        List.length_cons, Nat.succ_mul]
      omega

theorem drop_image (blocks : List (List.Vector α width)) (count : Nat) :
    (image blocks).drop (count * width) = image (blocks.drop count) := by
  induction blocks generalizing count with
  | nil => simp
  | cons head tail ih =>
      cases count with
      | zero => simp
      | succ count =>
          rw [List.drop_succ_cons, ← ih count, image_cons, Nat.succ_mul, Nat.add_comm,
            ← List.drop_drop, List.drop_left' (List.Vector.toList_length head)]

theorem take_image (blocks : List (List.Vector α width)) (count : Nat) :
    (image blocks).take (count * width) = image (blocks.take count) := by
  induction blocks generalizing count with
  | nil => simp
  | cons head tail ih =>
      cases count with
      | zero => simp
      | succ count =>
          rw [List.take_succ_cons, image_cons, image_cons, ← ih count, Nat.succ_mul,
            List.take_append, List.Vector.toList_length, Nat.add_sub_cancel,
            List.take_of_length_le (by simp)]

/-- Reading one width at a block position yields that block. -/
theorem read_image {blocks : List (List.Vector α width)} {index : Nat}
    (inside : index < blocks.length) :
    ((image blocks).drop (index * width)).take width = blocks[index].toList := by
  rw [drop_image, List.drop_eq_getElem_cons inside, image_cons,
    List.take_left' (List.Vector.toList_length _)]

theorem image_injective (positive : 0 < width) :
    Function.Injective (image : List (List.Vector α width) → List α) := by
  intro left right same
  have lengths := congrArg List.length same
  simp only [length_image] at lengths
  have sameLength := Nat.eq_of_mul_eq_mul_right positive lengths
  refine List.ext_getElem sameLength fun index inLeft inRight => ?_
  apply List.Vector.toList_injective
  rw [← read_image inLeft, ← read_image inRight, same]

@[simp] theorem length_splice (elements data : List α) (offset : Nat)
    (inside : offset + data.length ≤ elements.length) :
    (splice elements offset data).length = elements.length := by
  simp only [splice, List.length_append, List.length_take, List.length_drop]
  omega

/-- A splice inside one block, as a block. -/
def spliceBlock (block : List.Vector α width) (offset : Nat) (data : List α)
    (inside : offset + data.length ≤ width) : List.Vector α width :=
  ⟨splice block.toList offset data, by
    rw [length_splice _ _ _ (by simpa using inside), List.Vector.toList_length]⟩

theorem toList_spliceBlock (block : List.Vector α width) (offset : Nat) (data : List α)
    (inside : offset + data.length ≤ width) :
    (spliceBlock block offset data inside).toList = splice block.toList offset data := rfl

/-- A splice that stays within one block changes that block only. -/
theorem splice_image {blocks : List (List.Vector α width)} {index offset : Nat}
    {data : List α} (present : index < blocks.length)
    (inside : offset + data.length ≤ width) :
    splice (image blocks) (index * width + offset) data =
      image (blocks.set index (spliceBlock blocks[index] offset data inside)) := by
  have before : (image blocks).take (index * width + offset) =
      image (blocks.take index) ++ blocks[index].toList.take offset := by
    rw [List.take_add, take_image, drop_image, List.drop_eq_getElem_cons present, image_cons,
      List.take_append_of_le_length (by rw [List.Vector.toList_length]; omega)]
  have after : (image blocks).drop (index * width + offset + data.length) =
      blocks[index].toList.drop (offset + data.length) ++ image (blocks.drop (index + 1)) := by
    rw [Nat.add_assoc, ← List.drop_drop, drop_image, List.drop_eq_getElem_cons present,
      image_cons, List.drop_append_of_le_length (by simpa using inside)]
  rw [splice, before, after, List.set_eq_take_append_cons_drop, if_pos present]
  simp [toList_spliceBlock, splice]

/-- A splice within the block behind a prefix, in list form. -/
theorem splice_image_append {front back : List (List.Vector α width)} {block : List.Vector α width}
    {offset : Nat} {data : List α} (inside : offset + data.length ≤ width) :
    splice (image (front ++ block :: back)) (front.length * width + offset) data =
      image (front ++ spliceBlock block offset data inside :: back) := by
  have present : front.length < (front ++ block :: back).length := by simp
  rw [splice_image present inside]
  simp

theorem read_image_append (front back : List (List.Vector α width)) (block : List.Vector α width) :
    ((image (front ++ block :: back)).drop (front.length * width)).take width = block.toList := by
  have present : front.length < (front ++ block :: back).length := by simp
  rw [read_image present]
  simp

theorem splice_end (elements data : List α) :
    splice elements elements.length data = elements ++ data := by
  simp [splice]

@[simp] theorem length_wholeBlocks (elements : List α) :
    (wholeBlocks width elements).length = elements.length / width :=
  List.length_ofFn

@[simp] theorem toList_getElem_wholeBlocks (elements : List α) (index : Nat)
    (inside : index < (wholeBlocks width elements).length) :
    (wholeBlocks width elements)[index].toList =
      (elements.drop (index * width)).take width := by
  simp [wholeBlocks]

/-- Whole blocks followed by less than one more block are read back exactly. -/
theorem wholeBlocks_image_append (blocks : List (List.Vector α width)) (tail : List α)
    (short : tail.length < width) : wholeBlocks width (image blocks ++ tail) = blocks := by
  have count : (image blocks ++ tail).length / width = blocks.length := by
    rw [List.length_append, length_image, Nat.mul_comm,
      Nat.mul_add_div (by omega), Nat.div_eq_of_lt short, Nat.add_zero]
  refine List.ext_getElem (by rw [length_wholeBlocks, count]) fun index _ inside => ?_
  apply List.Vector.toList_injective
  have bound : (index + 1) * width ≤ (image blocks).length := by
    rw [length_image]
    exact Nat.mul_le_mul_right width inside
  rw [Nat.succ_mul] at bound
  rw [toList_getElem_wholeBlocks, List.drop_append_of_le_length (by omega),
    List.take_append_of_le_length (by rw [List.length_drop]; omega), read_image inside]

theorem wholeBlocks_image (positive : 0 < width) (blocks : List (List.Vector α width)) :
    wholeBlocks width (image blocks) = blocks := by
  simpa using wholeBlocks_image_append blocks [] positive

/-- Every sequence is the image of its whole blocks and a tail shorter than one. -/
theorem exists_image_append (positive : 0 < width) (elements : List α) :
    ∃ (blocks : List (List.Vector α width)) (tail : List α),
      elements = image blocks ++ tail ∧ tail.length < width := by
  induction length : elements.length using Nat.strong_induction_on generalizing elements with
  | h count ih =>
      by_cases short : elements.length < width
      · exact ⟨[], elements, rfl, short⟩
      · have inside : (0 + 1) * width ≤ elements.length := by omega
        obtain ⟨blocks, tail, rest, tailShort⟩ := ih (elements.drop width).length
          (by rw [List.length_drop]; omega) (elements.drop width) rfl
        refine ⟨blockAt elements 0 inside :: blocks, tail, ?_, tailShort⟩
        rw [image_cons, List.append_assoc, ← rest, toList_blockAt]
        simp

/-- A sequence whose length is a multiple of the width is made of whole blocks. -/
theorem image_wholeBlocks (positive : 0 < width) {elements : List α}
    (framed : elements.length % width = 0) :
    image (wholeBlocks width elements) = elements := by
  obtain ⟨blocks, tail, rfl, short⟩ := exists_image_append positive elements
  have noTail : tail = [] := by
    rw [List.length_append, length_image, Nat.mul_comm, Nat.mul_add_mod,
      Nat.mod_eq_of_lt short] at framed
    exact List.length_eq_zero_iff.mp framed
  subst noTail
  rw [List.append_nil, wholeBlocks_image positive]

end Blocks

end AzureInit.Foundation
