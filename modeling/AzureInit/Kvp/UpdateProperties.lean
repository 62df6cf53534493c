import AzureInit.Kvp.ListModel
import AzureInit.Kvp.StoreProperties

/-! Every update of the pool file is the update of the list of records, or has
been interrupted by a fault. -/

set_option autoImplicit false

namespace AzureInit.Kvp

open Foundation
open Blocks (image)
open Sweep (Edit closeGap sweep Cut)
open KvpPoolIter (At Between Edits TornAppend TornEdit)
open KvpPoolStore (removeTargeted insertRecord InsertScan validateRecord)

variable {allowed : World → Fault → Prop} {world : World}

/-! ## The bodies of the scans -/

theorem KvpPoolIter.At.between {iter : KvpPoolIter} {done tail : List RawRecord} {head : RawRecord}
    (standing : iter.At (done ++ head :: tail) world)
    (index : iter.currentIndex = done.length + 1) :
    iter.Between (done ++ [head]) tail world := by
  refine ⟨by simpa using standing, fun _ => by simp [index], ?_⟩
  rintro rfl
  rw [standing.count, index]
  simp

private theorem removed_between {iter : KvpPoolIter} {done tail : List RawRecord}
    (standing : iter.At (done ++ closeGap tail) world)
    (index : iter.currentIndex = if tail = [] then done.length + 1 else done.length) :
    iter.Between done (closeGap tail) world := by
  refine ⟨standing, fun more => ?_, fun ended => ?_⟩
  · rw [index, if_neg]
    rintro rfl
    exact more rfl
  · have none : tail = [] := by
      rw [← List.length_eq_zero_iff, ← Sweep.length_closeGap, ended, List.length_nil]
    rw [standing.count, index, if_pos none, ended]
    simp

private theorem removeCurrent_edits {β : Type} {step : β → RawRecord → Except IoError (Edit RawRecord × β)}
    {iter : KvpPoolIter} {done tail : List RawRecord} {head : RawRecord} {state next : β}
    (stepped : step state head = .ok (.remove, next))
    (standing : iter.At (done ++ head :: tail) world)
    (index : iter.currentIndex = done.length + 1) :
    Ensures (HandleStep allowed)
      (do
        let iter ← Io.lift iter.removeCurrent
        return (iter, next)) world
      (fun outcome after => ∃ edit, step state head = .ok (edit, outcome.2) ∧
        outcome.1.Between (done ++ edit.emitted head) (edit.remaining tail) after)
      (fun error after => ∃ io final, error = .io io ∧ Faulted allowed ∧
        Cut step state (head :: tail) final ∧ after.bytes = image (done ++ final)) := by
  refine (ensures_lift (KvpPoolIter.removeCurrent_ensures standing index)).bind ?_ ?_
  · rintro _ after ⟨io, rfl, fault, place, left⟩
    exact ⟨io, place :: tail, rfl, fault, .torn stepped nofun, left⟩
  · rintro removed after ⟨still, moved⟩
    refine ensures_pure_iff.mpr ⟨.remove, stepped, ?_⟩
    rw [Sweep.Edit.emitted_remove, List.append_nil, Sweep.Edit.remaining_remove]
    exact removed_between still moved

theorem removeTargeted_edits {β : Type} (targeted : Text → Bool) (note : β → β) :
    Edits allowed (removeTargeted targeted note) (removal targeted note) := by
  rintro done tail head ⟨key, value⟩ iter noted world decoded standing index
  rw [removeTargeted]
  split
  · rename_i target
    have stepped : removal targeted note noted head = .ok (.remove, note noted) := by
      simp only [removal, decoded, target, if_true]
    exact removeCurrent_edits stepped standing index
  · rename_i other
    refine ensures_pure_iff.mpr ⟨.keep, ?_, standing.between index⟩
    simp only [removal, decoded, if_neg other]

theorem insertRecord_edits (key value : Text) :
    Edits allowed (insertRecord key value) (insertion key value) := by
  rintro done tail head ⟨k, v⟩ iter scan world decoded standing index
  rw [insertRecord]
  dsimp only
  split
  · rename_i same
    split
    · rename_i found
      have stepped : insertion key value scan head =
          .ok (.remove, { scan with uniqueKeys := insert k scan.uniqueKeys }) := by
        simp only [insertion, decoded, same, found, if_true]
      exact removeCurrent_edits stepped standing index
    · rename_i missing
      have stepped : insertion key value scan head = .ok (.replace (head.setValue value),
          { found := true, uniqueKeys := insert k scan.uniqueKeys }) := by
        simp only [insertion, decoded, same, if_true, if_neg missing]
      refine (ensures_lift
        (KvpPoolIter.overwriteCurrentValue_ensures standing index value)).bind ?_ ?_
      · rintro _ after ⟨io, rfl, fault, place, left⟩
        exact ⟨io, place :: tail, rfl, fault, .torn stepped nofun, left⟩
      · rintro _ after still
        exact ensures_pure_iff.mpr ⟨_, stepped, still.between index⟩
  · rename_i other
    refine ensures_pure_iff.mpr ⟨.keep, ?_, standing.between index⟩
    simp only [insertion, decoded, if_neg other]

theorem visiting_edits {β : Type} (visit : β → Text × Text → β) :
    Edits allowed (fun iter result record => return (iter, visit result record))
      (visiting visit) := by
  rintro done tail head record iter state world decoded standing index
  refine ensures_pure_iff.mpr ⟨.keep, ?_, standing.between index⟩
  simp only [visiting, decoded]

theorem removal_refuses {β : Type} {targeted : Text → Bool} {note : β → β} (noted : β)
    (record : RawRecord) (error : IoError) (undecodable : record.decode = .error error) :
    removal targeted note noted record = .error error := by
  simp only [removal, undecodable]

theorem insertion_refuses {key value : Text} (scan : InsertScan) (record : RawRecord)
    (error : IoError) (undecodable : record.decode = .error error) :
    insertion key value scan record = .error error := by
  simp only [insertion, undecodable]

theorem visiting_refuses {β : Type} {visit : β → Text × Text → β} (state : β)
    (record : RawRecord) (error : IoError) (undecodable : record.decode = .error error) :
    visiting visit state record = .error error := by
  simp only [visiting, undecodable]

/-! ## Whole updates -/

/-- What a batch of appended records may have come to when it was interrupted. -/
def BatchInterrupted (allowed : World → Fault → Prop) (records added : List RawRecord)
    (bytes : List UInt8) : Prop :=
  bytes = image records ∨ bytes = image (records ++ added) ∨
    ∃ front record, front ++ [record] <+: added ∧
      TornAppend allowed (records ++ front) record bytes

/-- What an interrupted update may leave in the file. -/
def Update.Interrupted (allowed : World → Fault → Prop) :
    Update → List RawRecord → List UInt8 → Prop
  | .append _ key value, records, bytes =>
      BatchInterrupted allowed records [RawRecord.encode key value] bytes
  | .appendMultiple _ added, records, bytes =>
      BatchInterrupted allowed records (encodeAll added) bytes
  | .load _ added, records, bytes =>
      bytes = image records ∨ BatchInterrupted allowed [] (encodeAll added) bytes
  | .insert _ key value, records, bytes =>
      ∃ final, Cut (insertion key value) noneSeen records final ∧
        BatchInterrupted allowed final [RawRecord.encode key value] bytes
  | .delete key, records, bytes =>
      ∃ final, Cut (removal (· == key) fun _ => true) false records final ∧
        bytes = image final
  | .deleteMultiple keys, records, bytes =>
      ∃ targeted final, KvpPoolStore.collectKeys keys = .ok targeted ∧
        Cut (removal (· ∈ targeted) fun count => count + 1) 0 records final ∧
        bytes = image final
  | .clear, records, bytes => bytes = image records ∨ bytes = []

/-- The two ways an update ends. A finished update is the update of the list; any other has met a fault. -/
def Update.Outcome (allowed : World → Fault → Prop) (update : Update) (records : List RawRecord)
    (result : Except KvpError UpdateReply) (bytes : List UInt8) : Prop :=
  result = (update.onList records).1 ∧ bytes = image (update.onList records).2 ∨
    Faulted allowed ∧ update.Interrupted allowed records bytes

variable {records : List RawRecord}

theorem flush_ensures (bytes : world.bytes = image records) :
    Ensures (HandleStep allowed) (Io.lift KvpPoolIter.flush) world
      (fun _ after => after.bytes = image records)
      (fun _ after => Faulted allowed ∧ after.bytes = image records) :=
  (ensures_lift (ensures_sync (by simp))).imp
    (fun _ _ kept => (World.bytes_eq_of_file_eq kept.1).trans bytes)
    fun _ _ ⟨_, _, untouched⟩ => ⟨untouched.2, untouched.bytes.trans bytes⟩

/-- The record loop of `write_records_locked` appends its records in order. -/
theorem appendAll_ensures {iter : KvpPoolIter} (added : List (Text × Text))
    (standing : iter.At records world) :
    Ensures (HandleStep allowed)
      (added.foldlM (fun iter (key, value) => Io.lift (iter.append key value)) iter) world
      (fun iter' after => iter'.At (records ++ encodeAll added) after)
      (fun _ after => ∃ front record, front ++ [record] <+: encodeAll added ∧
        TornAppend allowed (records ++ front) record after.bytes) := by
  induction added generalizing iter records world with
  | nil =>
      refine ensures_pure_iff.mpr ?_
      rwa [encodeAll, List.map_nil, List.append_nil]
  | cons head tail ih =>
      obtain ⟨key, value⟩ := head
      rw [List.foldlM_cons]
      refine (ensures_lift (KvpPoolIter.append_ensures standing key value)).bind ?_ ?_
      · rintro _ after ⟨io, rfl, torn⟩
        exact ⟨[], RawRecord.encode key value, List.prefix_append _ (encodeAll tail),
          by rwa [List.append_nil]⟩
      · rintro next middle ⟨still, -⟩
        refine (ih still).imp ?_ ?_
        · intro iter' after ended
          rwa [List.append_assoc] at ended
        · rintro _ after ⟨front, record, ⟨back, split⟩, torn⟩
          refine ⟨RawRecord.encode key value :: front, record, ⟨back, ?_⟩, ?_⟩
          · rw [List.cons_append, List.cons_append, split]
            rfl
          · rwa [List.append_assoc] at torn

/-- A batch of records behind an existing list, written and flushed. -/
theorem appendBatch_ensures {iter : KvpPoolIter} (added : List (Text × Text))
    (standing : iter.At records world) :
    Ensures (HandleStep allowed)
      (do
        let _ ← added.foldlM (fun iter (key, value) => Io.lift (iter.append key value)) iter
        Io.lift KvpPoolIter.flush) world
      (fun _ after => after.bytes = image (records ++ encodeAll added))
      (fun _ after => Faulted allowed ∧
        BatchInterrupted allowed records (encodeAll added) after.bytes) := by
  refine (appendAll_ensures added standing).bind ?_ fun _ middle ended => ?_
  · rintro _ after ⟨front, record, front_prefix, torn⟩
    exact ⟨torn.1, .inr (.inr ⟨front, record, front_prefix, torn⟩)⟩
  · exact (flush_ensures ended.bytes).imp (fun _ _ => id)
      fun _ _ ⟨fault, left⟩ => ⟨fault, .inr (.inl left)⟩

/-- The program returns the update's reply and leaves the update's records. -/
def Performs (allowed : World → Fault → Prop) (update : Update) (records : List RawRecord)
    {α : Type} (program : KvpIo α) (reply : α → UpdateReply) (world : World) : Prop :=
  Ensures (HandleStep allowed) program world
    (fun value after => update.Outcome allowed records (.ok (reply value)) after.bytes)
    (fun error after => update.Outcome allowed records (.error error) after.bytes)

theorem append_performs (bytes : world.bytes = image records) (mode : PoolMode)
    (key value : Text) :
    Performs allowed (.append mode key value) records
      (KvpPoolStore.append mode key value) (fun _ => .done) world := by
  refine ofResult_bind_ensures (fun error rejected => .inl ?_) fun _ accepted => ?_
  · simp only [Update.onList, rejected, bytes, and_self]
  refine (KvpPoolStore.iterCreate_ensures bytes).bind ?_ fun iter middle between => ?_
  · exact fun _ _ stopped => .inr ⟨stopped.2, .inl stopped.1⟩
  have batch := @appendBatch_ensures allowed _ _ _ [(key, value)] between.standing
  simp only [List.foldlM_cons, List.foldlM_nil, bind_pure] at batch
  refine closing_ensures (batch.imp ?_ fun _ _ stopped => .inr stopped)
  intro _ after written
  refine .inl ?_
  simp only [Update.onList, accepted, written, List.nil_append]
  exact ⟨trivial, rfl⟩

/-- The write primitive that `append_multiple` and `load` share. -/
theorem writeRecordsLocked_ensures (bytes : world.bytes = image records)
    (added : List (Text × Text)) (truncate : Bool) :
    Ensures (HandleStep allowed) (KvpPoolStore.writeRecordsLocked added truncate) world
      (fun _ after =>
        after.bytes = image ((if truncate then [] else records) ++ encodeAll added))
      (fun _ after => Faulted allowed ∧ (after.bytes = image records ∨
        BatchInterrupted allowed (if truncate then [] else records) (encodeAll added)
          after.bytes)) := by
  refine (KvpPoolStore.iterCreate_ensures bytes).bind ?_ fun iter middle between => ?_
  · exact fun _ _ stopped => ⟨stopped.2, .inl stopped.1⟩
  have standing := between.standing
  refine @closing_ensures allowed middle _ _
    (fun _ left => left = image ((if truncate then [] else records) ++ encodeAll added))
    (fun _ left => Faulted allowed ∧ (left = image records ∨
      BatchInterrupted allowed (if truncate then [] else records) (encodeAll added) left)) ?_
  cases truncate with
  | false =>
      exact (appendBatch_ensures added standing).imp (fun _ _ => id)
        fun _ _ stopped => ⟨stopped.1, .inr stopped.2⟩
  | true =>
      have cut : Ensures (HandleStep allowed) (KvpPoolStore.truncateIf true iter) middle
          (fun iter after => iter.At [] after)
          (fun _ after => Faulted allowed ∧ after.bytes = image records) := by
        refine (ensures_lift (ensures_setLen (Nat.zero_le _))).bind ?_ fun _ cut reached => ?_
        · rintro _ after ⟨_, _, untouched⟩
          exact ⟨untouched.2, untouched.bytes.trans standing.bytes⟩
        · refine ensures_pure_iff.mpr ⟨reached.1, rfl, ?_⟩
          rw [reached.2, standing.position]
      refine cut.bind (fun _ _ stopped => ⟨stopped.1, .inl stopped.2⟩) fun iter _ empty => ?_
      exact (appendBatch_ensures added empty).imp (fun _ _ => id)
        fun _ _ stopped => ⟨stopped.1, .inr stopped.2⟩

theorem appendMultiple_performs (bytes : world.bytes = image records) (mode : PoolMode)
    (added : List (Text × Text)) :
    Performs allowed (.appendMultiple mode added) records
      (KvpPoolStore.appendMultiple mode added) (fun _ => .done) world := by
  rw [KvpPoolStore.appendMultiple]
  split
  · rename_i empty
    refine ensures_pure_iff.mpr (.inl ?_)
    simp only [Update.onList, empty, if_true, bytes, and_self]
  rename_i nonempty
  refine ofResult_bind_ensures (fun error rejected => .inl ?_) fun _ accepted => ?_
  · simp only [Update.onList, nonempty, validateAll, rejected, bytes]
    simp
  refine (writeRecordsLocked_ensures bytes added false).imp ?_ ?_
  · intro _ after written
    refine .inl ?_
    simp only [Update.onList, nonempty, validateAll, accepted]
    exact ⟨rfl, written⟩
  · rintro _ after ⟨fault, untouched | stopped⟩
    · exact .inr ⟨fault, .inl untouched⟩
    · exact .inr ⟨fault, stopped⟩

theorem load_performs (bytes : world.bytes = image records) (mode : PoolMode)
    (added : List (Text × Text)) :
    Performs allowed (.load mode added) records
      (KvpPoolStore.load mode added) (fun _ => .done) world := by
  refine ofResult_bind_ensures (fun error rejected => .inl ?_) fun uniqueKeys accepted => ?_
  · simp only [Update.onList, rejected, bytes, and_self]
  split
  · rename_i tooMany
    refine ensures_throw_iff.mpr (.inl ?_)
    simp only [Update.onList, accepted, tooMany, if_true, bytes, and_self]
  rename_i fits
  refine (writeRecordsLocked_ensures bytes added true).imp ?_ ?_
  · intro _ after written
    refine .inl ?_
    simp only [Update.onList, accepted, if_neg fits]
    exact ⟨trivial, written⟩
  · exact fun _ after stopped => .inr stopped

theorem clear_performs (bytes : world.bytes = image records) :
    Performs allowed .clear records KvpPoolStore.clear (fun _ => .done) world := by
  refine unlessMissing_ensures (KvpPoolStore.openForReadWrite_ensures bytes) ?_ ?_ ?_
  · rintro error after ⟨left, fault | ⟨-, rfl⟩⟩ -
    · exact .inr ⟨fault, .inl left⟩
    · exact .inl ⟨rfl, left⟩
  · rintro error after ⟨left, fault | ⟨missing, -⟩⟩ present
    · exact .inr ⟨fault, .inl left⟩
    · exact absurd missing present
  · intro _ middle left
    refine closing_ensures ?_
    have cleared : Ensures (HandleStep allowed)
        (do
          lockForWriting
          request (.setLen 0)) middle
        (fun _ after => after.bytes = [])
        (fun _ after => Faulted allowed ∧ after.bytes = image records) := by
      refine lockForWriting_ensures.bind ?_ fun _ locked file => ?_
      · exact fun _ _ untouched => ⟨untouched.2, untouched.bytes.trans left⟩
      refine (ensures_setLen (Nat.zero_le _)).imp (fun _ _ cut => cut.1) fun _ _ untouched => ?_
      exact ⟨untouched.2, untouched.bytes.trans ((World.bytes_eq_of_file_eq file).trans left)⟩
    refine (ensures_lift cleared).imp (fun _ _ empty => .inl ⟨rfl, empty⟩) ?_
    rintro _ after ⟨_, _, fault, kept⟩
    exact .inr ⟨fault, .inl kept⟩

/-- A scan of the whole pool by an editing body, from the first record. -/
theorem scan_ensures {β : Type} {body : KvpPoolIter → β → Text × Text → KvpIo (KvpPoolIter × β)}
    {step : β → RawRecord → Except IoError (Edit RawRecord × β)}
    (edits : Edits allowed body step)
    (refuses : ∀ state head error, head.decode = .error error → step state head = .error error)
    {iter : KvpPoolIter} (between : iter.Between [] records world) (initial : β) :
    Ensures (HandleStep allowed)
      (KvpPoolIter.forEachRecord body iter.recordCount iter initial) world
      (fun outcome after => ∃ final, sweep step initial records = (.ok outcome.2, final) ∧
        outcome.1.At final after)
      (fun error after => ∃ io final, error = .io io ∧ after.bytes = image final ∧
        (sweep step initial records = (.error io, final) ∨
          Faulted allowed ∧ Cut step initial records final)) := by
  have enough : records.length ≤ iter.recordCount := Nat.le_of_eq between.standing.count.symm
  refine (KvpPoolIter.forEachRecord_ensures edits refuses between enough).imp ?_ fun _ _ => id
  rintro outcome after ⟨final, passed, ended⟩
  exact ⟨final, passed, by simpa using ended.standing⟩

/-- The common part of the deletions: the scan, and a flush if it removed anything. -/
theorem removeScan_ensures {β : Type} (bytes : world.bytes = image records)
    (targeted : Text → Bool) (note : β → β) (initial : β) (any : β → Prop) [DecidablePred any] :
    Ensures (HandleStep allowed)
      (unlessMissing KvpPoolStore.iterMut initial fun iter => do
        let (_, noted) ← KvpPoolIter.forEachRecord (removeTargeted targeted note)
          iter.recordCount iter initial
        Io.lift (if any noted then KvpPoolIter.flush else pure ())
        return noted) world
      (fun noted after => ∃ final, after.bytes = image final ∧
        (sweep (removal targeted note) initial records = (.ok noted, final) ∨
          Faulted allowed ∧ Cut (removal targeted note) initial records final))
      (fun error after => ∃ final, after.bytes = image final ∧
        ((∃ io, error = .io io ∧
            sweep (removal targeted note) initial records = (.error io, final)) ∨
          Faulted allowed ∧ Cut (removal targeted note) initial records final)) := by
  refine unlessMissing_ensures (KvpPoolStore.iterMut_ensures bytes) ?_ ?_ ?_
  · rintro error after ⟨left, fault | ⟨-, rfl⟩⟩ -
    · exact ⟨records, left, .inr ⟨fault, .here⟩⟩
    · exact ⟨[], left, .inl (Sweep.sweep_nil initial)⟩
  · rintro error after ⟨left, fault | ⟨missing, -⟩⟩ present
    · exact ⟨records, left, .inr ⟨fault, .here⟩⟩
    · exact absurd missing present
  intro iter middle between
  refine @closing_ensures allowed middle _ _
    (fun noted left => ∃ final, left = image final ∧
      (sweep (removal targeted note) initial records = (.ok noted, final) ∨
        Faulted allowed ∧ Cut (removal targeted note) initial records final))
    (fun error left => ∃ final, left = image final ∧
      ((∃ io, error = .io io ∧
          sweep (removal targeted note) initial records = (.error io, final)) ∨
        Faulted allowed ∧ Cut (removal targeted note) initial records final)) ?_
  refine (scan_ensures (removeTargeted_edits targeted note) removal_refuses between initial).bind
    ?_ ?_
  · rintro error after ⟨io, final, rfl, left, refused | faulted⟩
    · exact ⟨final, left, .inl ⟨io, rfl, refused⟩⟩
    · exact ⟨final, left, .inr faulted⟩
  rintro ⟨_, noted⟩ scanned ⟨final, passed, standing⟩
  have cut : Cut (removal targeted note) initial records final := by
    have whole := @Sweep.cut_sweep _ _ _ (removal targeted note) initial records
    rwa [passed] at whole
  have flushed : Ensures (HandleStep allowed)
      (Io.lift (if any noted then KvpPoolIter.flush else pure ())) scanned
      (fun _ after => after.bytes = image final)
      (fun _ after => Faulted allowed ∧ after.bytes = image final) := by
    split
    · exact flush_ensures standing.bytes
    · exact ensures_pure_iff.mpr standing.bytes
  refine flushed.bind ?_ ?_
  · exact fun _ _ stopped => ⟨final, stopped.2, .inr ⟨stopped.1, cut⟩⟩
  · exact fun _ _ left => ensures_pure_iff.mpr ⟨final, left, .inl passed⟩

theorem delete_performs (bytes : world.bytes = image records) (key : Text) :
    Performs allowed (.delete key) records (KvpPoolStore.delete key) .found world := by
  refine ofResult_bind_ensures (fun error rejected => .inl ?_) fun _ accepted => ?_
  · simp only [Update.onList, rejected, bytes, and_self]
  refine (removeScan_ensures bytes (· == key) (fun _ => true) false (· = true)).imp ?_ ?_
  · rintro found after ⟨final, left, passed | faulted⟩
    · exact .inl (by simp only [Update.onList, accepted, passed, swept, left, and_self])
    · exact .inr ⟨faulted.1, final, faulted.2, left⟩
  · rintro error after ⟨final, left, ⟨io, rfl, refused⟩ | faulted⟩
    · exact .inl (by simp only [Update.onList, accepted, refused, swept, left, and_self])
    · exact .inr ⟨faulted.1, final, faulted.2, left⟩

theorem deleteMultiple_performs (bytes : world.bytes = image records) (keys : List Text) :
    Performs allowed (.deleteMultiple keys) records
      (KvpPoolStore.deleteMultiple keys) .removed world := by
  refine ofResult_bind_ensures (fun error rejected => .inl ?_) fun targeted accepted => ?_
  · simp only [Update.onList, rejected, bytes, and_self]
  split
  · rename_i none
    refine ensures_pure_iff.mpr (.inl ?_)
    simp only [Update.onList, accepted, none, if_true, bytes, and_self]
  rename_i some
  refine (removeScan_ensures bytes (· ∈ targeted) (fun count => count + 1) 0 (· > 0)).imp ?_ ?_
  · rintro count after ⟨final, left, passed | faulted⟩
    · exact .inl (by
        simp only [Update.onList, accepted, if_neg some, passed, swept, left, and_self])
    · exact .inr ⟨faulted.1, targeted, final, accepted, faulted.2, left⟩
  · rintro error after ⟨final, left, ⟨io, rfl, refused⟩ | faulted⟩
    · exact .inl (by
        simp only [Update.onList, accepted, if_neg some, refused, swept, left, and_self])
    · exact .inr ⟨faulted.1, targeted, final, accepted, faulted.2, left⟩

theorem insert_performs (bytes : world.bytes = image records) (mode : PoolMode)
    (key value : Text) :
    Performs allowed (.insert mode key value) records
      (KvpPoolStore.insert mode key value) (fun _ => .done) world := by
  refine ofResult_bind_ensures (fun error rejected => .inl ?_) fun _ accepted => ?_
  · simp only [Update.onList, rejected, bytes, and_self]
  refine (KvpPoolStore.iterCreate_ensures bytes).bind ?_ fun iter middle between => ?_
  · exact fun _ _ stopped => .inr ⟨stopped.2, records, .here, .inl stopped.1⟩
  refine closing_ensures ?_
  refine (scan_ensures (insertRecord_edits key value) insertion_refuses between noneSeen).bind
    ?_ ?_
  · rintro error after ⟨io, final, rfl, left, refused | faulted⟩
    · exact .inl (by simp only [Update.onList, accepted, refused, insertEnd, left, and_self])
    · exact .inr ⟨faulted.1, final, faulted.2, .inl left⟩
  rintro ⟨scanned, scan⟩ ended ⟨final, passed, standing⟩
  have cut : Cut (insertion key value) noneSeen records final := by
    have whole := @Sweep.cut_sweep _ _ _ (insertion key value) noneSeen records
    rwa [passed] at whole
  dsimp only [KvpPoolStore.insertMissing]
  split
  · rename_i found
    refine (flush_ensures standing.bytes).imp ?_ ?_
    · intro _ after left
      exact .inl (by
        simp only [Update.onList, accepted, passed, insertEnd, found, if_true, left, and_self])
    · exact fun _ _ stopped => .inr ⟨stopped.1, final, cut, .inl stopped.2⟩
  rename_i missing
  split
  · rename_i full
    refine ensures_throw_iff.mpr (.inl ?_)
    simp only [Update.onList, accepted, passed, insertEnd, if_neg missing, if_pos full,
      standing.bytes, and_self]
  · rename_i room
    have batch := @appendBatch_ensures allowed _ _ _ [(key, value)] standing
    simp only [List.foldlM_cons, List.foldlM_nil, bind_pure] at batch
    rw [bind_assoc]
    simp only [pure_bind]
    refine batch.imp ?_ fun _ _ stopped => .inr ⟨stopped.1, final, cut, stopped.2⟩
    intro _ after left
    refine .inl ?_
    simp only [Update.onList, accepted, passed, insertEnd, if_neg missing, if_neg room, left]
    exact ⟨trivial, rfl⟩

/-- Every update either is the update of the list or was interrupted by a fault. -/
theorem update_performs (bytes : world.bytes = image records) (update : Update) :
    Performs allowed update records update.perform id world := by
  cases update with
  | append mode key value =>
      exact (append_performs bytes mode key value).bind (fun _ _ => id)
        fun _ _ done => ensures_pure_iff.mpr done
  | appendMultiple mode added =>
      exact (appendMultiple_performs bytes mode added).bind (fun _ _ => id)
        fun _ _ done => ensures_pure_iff.mpr done
  | insert mode key value =>
      exact (insert_performs bytes mode key value).bind (fun _ _ => id)
        fun _ _ done => ensures_pure_iff.mpr done
  | delete key =>
      exact (delete_performs bytes key).bind (fun _ _ => id)
        fun _ _ done => ensures_pure_iff.mpr done
  | deleteMultiple keys =>
      exact (deleteMultiple_performs bytes keys).bind (fun _ _ => id)
        fun _ _ done => ensures_pure_iff.mpr done
  | load mode added =>
      exact (load_performs bytes mode added).bind (fun _ _ => id)
        fun _ _ done => ensures_pure_iff.mpr done
  | clear =>
      exact (clear_performs bytes).bind (fun _ _ => id)
        fun _ _ done => ensures_pure_iff.mpr done

end AzureInit.Kvp
