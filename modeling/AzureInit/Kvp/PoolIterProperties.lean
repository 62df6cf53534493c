import AzureInit.Foundation.InPlaceSweep
import AzureInit.Kvp.HandleProperties
import AzureInit.Kvp.PoolIter

/-! The iterator on a file of whole records. Its counters and cursor agree with
the file after every operation that succeeds; an operation that fails has at
worst changed the record it was editing, or has left part of one behind the end. -/

set_option autoImplicit false

namespace AzureInit.Kvp

open Foundation
open Blocks (image splice)
open Sweep (Edit closeGap sweep Cut)

namespace KvpPoolIter

/-- The iterator's counters and the handle's cursor agree with a framed file. -/
structure At (iter : KvpPoolIter) (records : List RawRecord) (world : World) : Prop where
  bytes : world.bytes = image records
  count : iter.recordCount = records.length
  position : world.position = iter.currentIndex * recordSize

variable {allowed : World → Fault → Prop} {world : World} {iter : KvpPoolIter}
  {records done tail : List RawRecord} {head : RawRecord}

theorem At.length_bytes (standing : iter.At records world) :
    world.bytes.length = records.length * recordSize := by
  rw [standing.bytes, Blocks.length_image]

/-! ## Appending -/

/-- A failed append has stored a prefix of the record behind the end: nothing,
all of it, or as much as a torn write at the end may store. -/
def TornAppend (allowed : World → Fault → Prop) (records : List RawRecord) (record : RawRecord)
    (bytes : List UInt8) : Prop :=
  Faulted allowed ∧ ∃ stored, bytes = image records ++ record.toList.take stored ∧
    (stored = 0 ∨ stored = recordSize ∨
      ∃ world, world.bytes = image records ∧ world.position = world.bytes.length ∧
        allowed world (.torn record.toList stored))

theorem TornAppend.of_untouched {record : RawRecord} {error : IoError} {after : World}
    (bytes : world.bytes = image records) (untouched : Untouched allowed world error after) :
    TornAppend allowed records record after.bytes := by
  refine ⟨untouched.2, 0, ?_, .inl rfl⟩
  rw [untouched.bytes, bytes, List.take_zero, List.append_nil]

theorem append_ensures (standing : iter.At records world) (key value : Text) :
    Ensures (HandleStep allowed) (iter.append key value) world
      (fun iter' after => iter'.At (records ++ [RawRecord.encode key value]) after ∧
        iter'.currentIndex = iter.currentIndex)
      (fun _ after => TornAppend allowed records (RawRecord.encode key value) after.bytes) := by
  refine ensures_streamPosition.bind (fun _ _ => .of_untouched standing.bytes) ?_
  rintro resumePos first ⟨rfl, firstFile, -⟩
  have firstBytes : first.bytes = image records := by
    rw [World.bytes_eq_of_file_eq firstFile, standing.bytes]
  refine ensures_seekEnd.bind (fun _ _ => .of_untouched firstBytes) ?_
  rintro _ second ⟨secondFile, secondPosition⟩
  have secondBytes : second.bytes = image records := by
    rw [World.bytes_eq_of_file_eq secondFile, firstBytes]
  rw [← World.bytes_eq_of_file_eq secondFile] at secondPosition
  have spliced (data : List UInt8) : splice second.bytes second.position data =
      image records ++ data := by
    rw [secondPosition, Blocks.splice_end, secondBytes]
  refine (ensures_writeAll (Nat.le_of_eq secondPosition)).bind ?_ ?_
  · rintro _ third ⟨stored, fault, thirdBytes⟩
    refine ⟨fault.faulted, stored, thirdBytes.trans (spliced _), ?_⟩
    rcases fault with ⟨none, -⟩ | torn
    · exact .inl none
    · exact .inr (.inr ⟨second, secondBytes, secondPosition, torn⟩)
  rintro _ third ⟨thirdBytes, -⟩
  rw [spliced] at thirdBytes
  have appended : third.bytes = image (records ++ [RawRecord.encode key value]) := by
    rw [thirdBytes, Blocks.image_append]
    simp
  refine (ensures_seekStart world.position).bind ?_ ?_
  · rintro _ fourth untouched
    refine ⟨untouched.2, recordSize, ?_, .inr (.inl rfl)⟩
    rw [untouched.bytes, thirdBytes, List.take_of_length_le (by simp), RawRecord.toList_encode]
  rintro _ fourth ⟨fourthFile, fourthPosition⟩
  refine ensures_pure_iff.mpr ⟨⟨?_, ?_, ?_⟩, rfl⟩
  · rw [World.bytes_eq_of_file_eq fourthFile, appended]
  · simp [standing.count]
  · rw [fourthPosition, standing.position]

/-! ## Editing the record last yielded -/

/-- What a failed edit may leave: any content in the place of the record. -/
def TornEdit (allowed : World → Fault → Prop) (done tail : List RawRecord)
    (bytes : List UInt8) : Prop :=
  Faulted allowed ∧ ∃ place, bytes = image (done ++ place :: tail)

theorem TornEdit.of_untouched {error : IoError} {after : World}
    (bytes : world.bytes = image (done ++ head :: tail))
    (untouched : Untouched allowed world error after) : TornEdit allowed done tail after.bytes :=
  ⟨untouched.2, head, by rw [untouched.bytes, bytes]⟩

/-- Writing at an offset inside one record changes that record only. -/
theorem ensures_write_inside {offset : Nat} {data : List UInt8}
    (bytes : world.bytes = image (done ++ head :: tail))
    (position : world.position = done.length * recordSize + offset)
    (inside : offset + data.length ≤ recordSize) :
    Ensures (HandleStep allowed) (request (.writeAll data)) world
      (fun _ after =>
        after.bytes = image (done ++ Blocks.spliceBlock head offset data inside :: tail) ∧
        after.position = done.length * recordSize + offset + data.length)
      (fun _ after => TornEdit allowed done tail after.bytes) := by
  have reached : world.position ≤ world.bytes.length := by
    rw [position, bytes, Blocks.length_image, List.length_append, List.length_cons,
      Nat.add_mul, Nat.succ_mul]
    omega
  refine (ensures_writeAll reached).imp ?_ ?_
  · rintro _ after ⟨written, moved⟩
    rw [bytes, position, Blocks.splice_image_append inside] at written
    exact ⟨written, by rw [moved, position]⟩
  · rintro _ after ⟨stored, fault, written⟩
    have short : offset + (data.take stored).length ≤ recordSize := by
      rw [List.length_take]
      omega
    rw [bytes, position, Blocks.splice_image_append short] at written
    exact ⟨fault.faulted, _, written⟩

theorem overwriteCurrentValue_ensures (standing : iter.At (done ++ head :: tail) world)
    (index : iter.currentIndex = done.length + 1) (value : Text) :
    Ensures (HandleStep allowed) (iter.overwriteCurrentValue value) world
      (fun _ after => iter.At (done ++ head.setValue value :: tail) after)
      (fun _ after => TornEdit allowed done tail after.bytes) := by
  rw [overwriteCurrentValue, if_neg (by omega)]
  refine (ensures_seekStart _).bind (fun _ _ => .of_untouched standing.bytes) ?_
  rintro _ first ⟨firstFile, firstPosition⟩
  have firstBytes := (World.bytes_eq_of_file_eq firstFile).trans standing.bytes
  rw [index, Nat.add_sub_cancel] at firstPosition
  refine (ensures_write_inside firstBytes firstPosition (valueField_inside value)).imp ?_
    fun _ _ => id
  rintro _ second ⟨secondBytes, secondPosition⟩
  refine ⟨secondBytes, ?_, ?_⟩
  · simpa using standing.count
  · rw [secondPosition, length_zeroPadded, index, Nat.succ_mul, Nat.add_assoc]
    rfl

theorem swapInLast_ensures {last : RawRecord} {front : List RawRecord}
    (bytes : world.bytes = image (done ++ head :: (front ++ [last]))) :
    Ensures (HandleStep allowed)
      (swapInLast done.length (done ++ head :: front).length) world
      (fun _ after => after.bytes = image (done ++ last :: (front ++ [last])) ∧
        after.position = done.length * recordSize)
      (fun _ after => TornEdit allowed done (front ++ [last]) after.bytes) := by
  refine (ensures_seekStart _).bind (fun _ _ => .of_untouched bytes) ?_
  rintro _ first ⟨firstFile, firstPosition⟩
  have firstBytes := (World.bytes_eq_of_file_eq firstFile).trans bytes
  have lastIn : first.position + recordSize ≤ first.bytes.length := by
    rw [firstPosition, firstBytes, Blocks.length_image, ← Nat.succ_mul]
    exact Nat.mul_le_mul_right _ (by simp)
  refine (ensures_readExact lastIn).bind (fun _ _ => .of_untouched firstBytes) ?_
  rintro buf second ⟨read, secondFile, -⟩
  have secondBytes := (World.bytes_eq_of_file_eq secondFile).trans firstBytes
  have readLast : buf = last.toList := by
    have split : done ++ head :: (front ++ [last]) = (done ++ head :: front) ++ last :: [] := by
      simp
    rw [read, firstPosition, firstBytes, split, Blocks.read_image_append]
  refine (ensures_seekStart _).bind (fun _ _ => .of_untouched secondBytes) ?_
  rintro _ third ⟨thirdFile, thirdPosition⟩
  have thirdBytes := (World.bytes_eq_of_file_eq thirdFile).trans secondBytes
  have inside : 0 + last.toList.length ≤ recordSize := by simp
  subst readLast
  rw [← Nat.add_zero (done.length * recordSize)] at thirdPosition
  refine (ensures_write_inside thirdBytes thirdPosition inside).bind (fun _ _ => id) ?_
  rintro _ fourth ⟨fourthBytes, -⟩
  have whole : Blocks.spliceBlock head 0 last.toList inside = last := by
    apply List.Vector.toList_injective
    rw [Blocks.toList_spliceBlock, splice]
    simp
  rw [whole] at fourthBytes
  refine (ensures_seekStart _).bind (fun _ _ => .of_untouched fourthBytes) ?_
  rintro _ fifth ⟨fifthFile, fifthPosition⟩
  refine ensures_pure_iff.mpr ⟨?_, fifthPosition⟩
  rw [World.bytes_eq_of_file_eq fifthFile, fourthBytes]

theorem removeCurrent_ensures (standing : iter.At (done ++ head :: tail) world)
    (index : iter.currentIndex = done.length + 1) :
    Ensures (HandleStep allowed) iter.removeCurrent world
      (fun iter' after => iter'.At (done ++ closeGap tail) after ∧
        iter'.currentIndex = if tail = [] then done.length + 1 else done.length)
      (fun _ after => TornEdit allowed done tail after.bytes) := by
  have count : iter.recordCount = done.length + 1 + tail.length := by
    rw [standing.count, List.length_append, List.length_cons]
    omega
  have final : iter.lastIndex = some (done.length + 1 + tail.length - 1) := by
    rw [lastIndex, if_neg (by omega), count]
  rw [removeCurrent, if_neg (by omega), final]
  dsimp only
  rw [index, count, Nat.add_sub_cancel]
  rcases List.eq_nil_or_concat tail with rfl | ⟨front, last, rfl⟩
  · have kept : done.length * recordSize ≤ world.bytes.length := by
      rw [standing.length_bytes]
      exact Nat.mul_le_mul_right _ (by simp)
    simp only [List.length_nil, Nat.add_zero, Nat.add_sub_cancel, ne_eq, not_true_eq_false,
      if_false]
    refine (ensures_setLen kept).bind (fun _ _ => .of_untouched standing.bytes) ?_
    rintro _ after ⟨bytes, position⟩
    refine ensures_pure_iff.mpr ⟨⟨?_, ?_, ?_⟩, rfl⟩
    · rw [bytes, standing.bytes, Blocks.take_image]
      simp
    · simp
    · rw [position, standing.position, index]
  · rw [List.concat_eq_append] at *
    have lastIndex : done.length + 1 + (front ++ [last]).length - 1 =
        (done ++ head :: front).length := by
      simp
      omega
    have moved : done.length ≠ (done ++ head :: front).length := by simp
    rw [lastIndex, if_pos moved]
    refine (swapInLast_ensures standing.bytes).bind (fun _ _ => id) ?_
    rintro _ first ⟨firstBytes, firstPosition⟩
    have kept : (done ++ head :: front).length * recordSize ≤ first.bytes.length := by
      rw [firstBytes, Blocks.length_image]
      exact Nat.mul_le_mul_right _ (by simp)
    refine (ensures_setLen kept).bind (fun _ _ => .of_untouched firstBytes) ?_
    rintro _ second ⟨secondBytes, secondPosition⟩
    refine ensures_pure_iff.mpr ⟨⟨?_, ?_, ?_⟩, ?_⟩
    · rw [secondBytes, firstBytes, Blocks.take_image, Sweep.closeGap_concat]
      have split : done ++ last :: (front ++ [last]) = (done ++ last :: front) ++ [last] := by
        simp
      rw [split, List.take_left' (by simp)]
    · simp
    · rw [secondPosition, firstPosition, if_pos moved]
    · simp

/-! ## Scanning -/

/-- Between two records: `done` has been scanned and `rest` is still to come. -/
structure Between (iter : KvpPoolIter) (done rest : List RawRecord) (world : World) : Prop where
  standing : iter.At (done ++ rest) world
  index : rest ≠ [] → iter.currentIndex = done.length
  ended : rest = [] → iter.recordCount ≤ iter.currentIndex

theorem next_ended {rest : List RawRecord} (between : iter.Between done rest world)
    (ended : rest = []) : iter.next = (pure (none, iter) : Program Call Reply _) := by
  rw [next, if_pos (between.ended ended)]

theorem next_post (between : iter.Between done (head :: tail) world) :
    Post (HandleStep allowed) iter.next world (fun outcome after =>
      after.file = world.file ∧
      (outcome = (some head.decode, { iter with currentIndex := iter.currentIndex + 1 }) ∧
        after.position = (done.length + 1) * recordSize ∨
      Faulted allowed ∧ ∃ error, outcome = (some (.error error), iter))) := by
  have index := between.index (List.cons_ne_nil _ _)
  have standing := between.standing
  have more : ¬ iter.currentIndex ≥ iter.recordCount := by
    rw [standing.count, index]
    simp
  have inside : world.position + recordSize ≤ world.bytes.length := by
    rw [standing.position, index, standing.length_bytes, ← Nat.succ_mul]
    exact Nat.mul_le_mul_right _ (by simp)
  rw [next, if_neg more, post_bind_iff]
  refine Post.imp (ensures_readExact inside) fun result after reached => ?_
  cases result with
  | ok buf =>
      obtain ⟨rfl, file, position⟩ := reached
      refine post_pure_iff.mpr ⟨file, .inl ⟨?_, ?_⟩⟩
      · rw [standing.position, index, standing.bytes, Blocks.read_image_append, RawRecord.decode]
      · rw [position, standing.position, index, Nat.succ_mul]
  | error error => exact post_pure_iff.mpr ⟨reached.1, .inr ⟨reached.2, error, rfl⟩⟩

/-- The body of a scan performs one step of a pass on the record just read. -/
def Edits {β : Type} (allowed : World → Fault → Prop)
    (body : KvpPoolIter → β → Text × Text → KvpIo (KvpPoolIter × β))
    (step : β → RawRecord → Except IoError (Edit RawRecord × β)) : Prop :=
  ∀ (done tail : List RawRecord) (head : RawRecord) (record : Text × Text) (iter : KvpPoolIter)
    (state : β) (world : World), head.decode = .ok record → iter.At (done ++ head :: tail) world →
    iter.currentIndex = done.length + 1 →
    Ensures (HandleStep allowed) (body iter state record) world
      (fun next after => ∃ edit, step state head = .ok (edit, next.2) ∧
        next.1.Between (done ++ edit.emitted head) (edit.remaining tail) after)
      (fun error after => ∃ io final, error = .io io ∧ Faulted allowed ∧
        Cut step state (head :: tail) final ∧ after.bytes = image (done ++ final))

theorem forEachRecord_succ {β : Type}
    (body : KvpPoolIter → β → Text × Text → KvpIo (KvpPoolIter × β)) (bound : Nat)
    (iter : KvpPoolIter) (state : β) :
    (forEachRecord body (bound + 1) iter state).run = (do
      match ← iter.next with
      | (none, iter) => return .ok (iter, state)
      | (some (.error error), _) => return .error (.io error)
      | (some (.ok record), iter) =>
          (body iter state record >>= fun next => forEachRecord body bound next.1 next.2).run) := by
  have lifted : (liftM iter.next : KvpIo _).run = Except.ok <$> iter.next := rfl
  rw [forEachRecord, ExceptT.run_bind, lifted, bind_map_left]
  rfl

/-- A scan whose body edits one record at a time is a pass over the records. -/
theorem forEachRecord_ensures {β : Type}
    {body : KvpPoolIter → β → Text × Text → KvpIo (KvpPoolIter × β)}
    {step : β → RawRecord → Except IoError (Edit RawRecord × β)}
    (edits : Edits allowed body step)
    (refuses : ∀ state head error, head.decode = .error error → step state head = .error error)
    {bound : Nat} {rest : List RawRecord} {state : β}
    (between : iter.Between done rest world) (enough : rest.length ≤ bound) :
    Ensures (HandleStep allowed) (forEachRecord body bound iter state) world
      (fun outcome after => ∃ final, sweep step state rest = (.ok outcome.2, final) ∧
        outcome.1.Between (done ++ final) [] after)
      (fun error after => ∃ io final, error = .io io ∧
        after.bytes = image (done ++ final) ∧
        (sweep step state rest = (.error io, final) ∨
          Faulted allowed ∧ Cut step state rest final)) := by
  induction bound generalizing done rest state iter world with
  | zero =>
      obtain rfl := List.length_eq_zero_iff.mp (Nat.le_zero.mp enough)
      refine ensures_pure_iff.mpr ⟨[], by simp, ?_⟩
      rwa [List.append_nil]
  | succ bound ih =>
      rw [Ensures, forEachRecord_succ]
      cases rest with
      | nil =>
          rw [next_ended between rfl]
          refine post_pure_iff.mpr ⟨[], by simp, ?_⟩
          rwa [List.append_nil]
      | cons head tail =>
          rw [post_bind_iff]
          refine (next_post between).imp ?_
          rintro _ first ⟨file, ⟨rfl, position⟩ | ⟨fault, error, rfl⟩⟩
          · have bytes := (World.bytes_eq_of_file_eq file).trans between.standing.bytes
            have index := between.index (List.cons_ne_nil _ _)
            cases decoded : head.decode with
            | error error =>
                exact post_pure_iff.mpr ⟨error, head :: tail, rfl, bytes,
                  .inl (Sweep.sweep_cons_error (refuses _ _ _ decoded) tail)⟩
            | ok record =>
                have standing : ({ iter with currentIndex := iter.currentIndex + 1 } :
                    KvpPoolIter).At (done ++ head :: tail) first :=
                  ⟨bytes, between.standing.count, by rw [position, index]⟩
                refine (edits done tail head record _ state first decoded standing
                  (by rw [index])).bind ?_ ?_
                · rintro _ after ⟨io, final, rfl, fault, cut, left⟩
                  exact ⟨io, final, rfl, left, .inr ⟨fault, cut⟩⟩
                · rintro next second ⟨edit, stepped, onward⟩
                  refine (ih onward (by simpa using enough)).imp ?_ ?_
                  · rintro outcome after ⟨final, swept, ended⟩
                    refine ⟨edit.emitted head ++ final, ?_, by rwa [← List.append_assoc]⟩
                    rw [Sweep.sweep_cons_ok stepped, swept]
                  · rintro _ after ⟨io, final, rfl, left, stopped⟩
                    refine ⟨io, edit.emitted head ++ final, rfl, by rwa [← List.append_assoc], ?_⟩
                    rcases stopped with swept | ⟨fault, cut⟩
                    · left
                      rw [Sweep.sweep_cons_ok stepped, swept]
                    · exact .inr ⟨fault, .later stepped cut⟩
          · refine post_pure_iff.mpr ⟨error, head :: tail, rfl, ?_, .inr ⟨fault, .here⟩⟩
            rw [World.bytes_eq_of_file_eq file, between.standing.bytes]

end KvpPoolIter

end AzureInit.Kvp
