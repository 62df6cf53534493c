import AzureInit.Kvp.FrameProperties

/-! Updates that meet faults. No fault loses a record the update does not target,
and only a torn write at the end of the file breaks its framing. -/

set_option autoImplicit false

namespace AzureInit.Kvp

open Foundation
open Blocks (image)
open Sweep (sweep Cut)
open KvpPoolIter (TornAppend)

/-! ## Untargeted records -/

/-- The whole records of a list stay readable behind a torn append. -/
theorem KvpPoolIter.TornAppend.exists_records {allowed : World → Fault → Prop} {records : List RawRecord}
    {record : RawRecord} {world : World} (torn : TornAppend allowed records record world.bytes) :
    ∃ added, world.records = records ++ added := by
  obtain ⟨-, stored, bytes, -⟩ := torn
  by_cases short : stored < recordSize
  · refine ⟨[], ?_⟩
    rw [World.records, bytes, Blocks.wholeBlocks_image_append _ _ (by simp [short]),
      List.append_nil]
  · refine ⟨[record], World.records_of_image ?_⟩
    rw [bytes, List.take_of_length_le (by simpa using Nat.le_of_not_lt short), Blocks.image_append]
    simp

/-- A batch, finished or not, leaves the records before it. -/
theorem BatchInterrupted.exists_records {allowed : World → Fault → Prop}
    {records added : List RawRecord} {world : World}
    (batch : BatchInterrupted allowed records added world.bytes) :
    ∃ more, world.records = records ++ more := by
  rcases batch with bytes | bytes | ⟨front, record, -, torn⟩
  · exact ⟨[], by rw [World.records_of_image bytes, List.append_nil]⟩
  · exact ⟨added, World.records_of_image bytes⟩
  · obtain ⟨more, left⟩ := torn.exists_records
    exact ⟨front ++ more, by rw [left, List.append_assoc]⟩

private theorem count_le_of_subperm {before after : List RawRecord} {record : RawRecord}
    (kept : (before.filter (· == record)).Subperm (after.filter (· == record))) :
    before.count record ≤ after.count record := by
  rw [List.count_eq_length_filter, List.count_eq_length_filter]
  exact kept.length_le

theorem count_le_of_removal_cut {β : Type} {targeted : Text → Bool} {note : β → β} {noted : β}
    {records final : List RawRecord} {record : RawRecord}
    (untargeted : targeted record.key = false)
    (cut : Cut (removal targeted note) noted records final) :
    records.count record ≤ final.count record := by
  refine count_le_of_subperm (Sweep.filter_subperm_of_cut (spared_of_removal ?_) cut)
  intro other same
  rwa [eq_of_beq same]

theorem count_le_of_insertion_cut {target value : Text} {scan : KvpPoolStore.InsertScan}
    {records final : List RawRecord} {record : RawRecord} (untargeted : record.key ≠ target)
    (cut : Cut (insertion target value) scan records final) :
    records.count record ≤ final.count record := by
  refine count_le_of_subperm (Sweep.filter_subperm_of_cut (spared_of_insertion ?_) cut)
  intro other same
  rwa [eq_of_beq same]

@[simp] theorem swept_snd {β : Type} (reply : β → UpdateReply)
    (outcome : Except IoError β × List RawRecord) : (swept reply outcome).2 = outcome.2 := by
  obtain ⟨_ | _, final⟩ := outcome <;> rfl

theorem insertEnd_snd (key value : Text)
    (outcome : Except IoError KvpPoolStore.InsertScan × List RawRecord) :
    ∃ more, (insertEnd key value outcome).2 = outcome.2 ++ more := by
  obtain ⟨error | scan, final⟩ := outcome
  · exact ⟨[], (List.append_nil _).symm⟩
  · simp only [insertEnd]
    split
    · exact ⟨[], (List.append_nil _).symm⟩
    · split
      · exact ⟨[], (List.append_nil _).symm⟩
      · exact ⟨_, rfl⟩

private theorem insert_count_le {allowed : World → Fault → Prop} {mode : PoolMode}
    {key value : Text} {records : List RawRecord} {result : Except KvpError UpdateReply}
    {world : World}
    (outcome : (Update.insert mode key value).Outcome allowed records result world.bytes)
    {record : RawRecord} (untargeted : record.key ≠ key) :
    records.count record ≤ world.records.count record := by
  have reached : ∃ final more, Cut (insertion key value) noneSeen records final ∧
      world.records = final ++ more := by
    rcases outcome with ⟨-, bytes⟩ | ⟨-, final, cut, batch⟩
    · simp only [Update.onList] at bytes
      split at bytes
      · exact ⟨records, [], .here, by rw [World.records_of_image bytes, List.append_nil]⟩
      · obtain ⟨more, left⟩ := insertEnd_snd key value (sweep (insertion key value) noneSeen records)
        exact ⟨_, more, Sweep.cut_sweep _ _, by rw [World.records_of_image bytes, left]⟩
    · obtain ⟨more, left⟩ := batch.exists_records
      exact ⟨final, more, cut, left⟩
  obtain ⟨final, more, cut, left⟩ := reached
  rw [left, List.count_append]
  exact (count_le_of_insertion_cut untargeted cut).trans (Nat.le_add_right _ _)

/-- A finished or interrupted update has kept every record it does not target. -/
theorem Update.Outcome.count_le {allowed : World → Fault → Prop} {update : Update}
    {targeted : Text → Bool} {records : List RawRecord} {result : Except KvpError UpdateReply}
    {world : World} (outcome : update.Outcome allowed records result world.bytes)
    (targets : update.targets = some targeted) {record : RawRecord}
    (untargeted : targeted record.key = false) :
    records.count record ≤ world.records.count record := by
  cases update with
  | insert mode key value =>
      obtain rfl := Option.some.inj targets
      exact insert_count_le outcome (by simpa using untargeted)
  | delete key =>
      obtain rfl := Option.some.inj targets
      have reached : ∃ final, Cut (removal (· == key) fun _ => true) false records final ∧
          world.bytes = image final := by
        rcases outcome with ⟨-, bytes⟩ | ⟨-, interrupted⟩
        · simp only [Update.onList] at bytes
          split at bytes
          · exact ⟨records, .here, bytes⟩
          · exact ⟨_, Sweep.cut_sweep _ _, by rwa [swept_snd] at bytes⟩
        · exact interrupted
      obtain ⟨final, cut, bytes⟩ := reached
      rw [World.records_of_image bytes]
      exact count_le_of_removal_cut untargeted cut
  | deleteMultiple keys =>
      obtain rfl := Option.some.inj targets
      have reached : world.bytes = image records ∨ ∃ collected final,
          KvpPoolStore.collectKeys keys = .ok collected ∧
          Cut (removal (· ∈ collected) fun count => count + 1) 0 records final ∧
          world.bytes = image final := by
        rcases outcome with ⟨-, bytes⟩ | ⟨-, interrupted⟩
        · simp only [Update.onList] at bytes
          split at bytes
          · exact .inl bytes
          rename_i collected accepted
          split at bytes
          · exact .inl bytes
          · exact .inr ⟨collected, _, accepted, Sweep.cut_sweep _ _, by rwa [swept_snd] at bytes⟩
        · exact .inr interrupted
      rcases reached with bytes | ⟨collected, final, accepted, cut, bytes⟩
      · rw [World.records_of_image bytes]
      · rw [World.records_of_image bytes]
        refine count_le_of_removal_cut ?_ cut
        simpa [mem_collectKeys accepted] using untargeted
  | append mode key value => cases targets
  | appendMultiple mode added => cases targets
  | load mode added => cases targets
  | clear => cases targets

/-- Whatever faults an insertion or deletion meets, every record it does not target
still stands in the file at a record boundary, as often as before. -/
theorem faults_keep_untargeted_records {world after : World} (wellFormed : world.WellFormed)
    {update : Update} {targeted : Text → Bool} (targets : update.targets = some targeted)
    {result : Except KvpError UpdateReply}
    (returned : Program.Runs (HandleStep anyFault) update.perform.run world result after)
    {record : RawRecord} (untargeted : targeted record.key = false) :
    world.records.count record ≤ after.records.count record := by
  have performed := @update_performs anyFault world world.records wellFormed.framed.bytes_eq update
  have outcome : update.Outcome anyFault world.records result after.bytes := by
    cases result with
    | ok reply => exact performed.value returned
    | error error => exact performed.error returned
  exact outcome.count_le targets untargeted

/-- Every write stores one byte and fails. -/
def tearing : (call : Call) → World → Reply call × World
  | .writeAll data, world => (.error { kind := .other }, world.write (data.take 1))
  | call, world => call.perform world

theorem tearing_admitted (call : Call) (world : World) :
    HandleStep anyFault call world (tearing call world).1 (tearing call world).2 := by
  cases call with
  | writeAll data => exact .torn data world { kind := .other } 1 world.now trivial
  | _ => exact .performed _ world world.now

theorem faults_keep_untargeted_records_tearing :
    duplicatesBehind.records.count (RawRecord.encode ['a'] ['2']) ≤
      ((Update.delete ['k']).perform.run.run tearing duplicatesBehind).2.records.count
        (RawRecord.encode ['a'] ['2']) :=
  faults_keep_untargeted_records duplicatesBehind_wellFormed rfl
    (Program.runs_run tearing_admitted _ duplicatesBehind)
    (by rw [(@fields_encode .safe ['a'] ['2'] (by decide)).2.1]; decide)

/-! ## Framing -/

/-- A write at the end of the file that fails has stored nothing or its whole
buffer; every other fault is allowed, torn writes inside the file included. -/
def wholeAtEnd : World → Fault → Prop
  | world, .torn data stored =>
      world.position = world.bytes.length → stored = 0 ∨ data.length ≤ stored
  | _, .failed _ => True

theorem KvpPoolIter.TornAppend.framed {records : List RawRecord} {record : RawRecord}
    {world : World} (torn : TornAppend wholeAtEnd records record world.bytes) : world.Framed := by
  obtain ⟨-, stored, bytes, extent⟩ := torn
  have extreme : stored = 0 ∨ recordSize ≤ stored := by
    rcases extent with none | all | ⟨before, -, atEnd, fault⟩
    · exact .inl none
    · exact .inr (Nat.le_of_eq all.symm)
    · simpa using fault atEnd
  rcases extreme with rfl | all
  · exact World.framed_of_image (by rw [bytes, List.take_zero, List.append_nil])
  · have whole : world.bytes = image (records ++ [record]) := by
      rw [bytes, List.take_of_length_le (by simpa using all), Blocks.image_append]
      simp
    exact World.framed_of_image whole

theorem BatchInterrupted.framed {records added : List RawRecord} {world : World}
    (batch : BatchInterrupted wholeAtEnd records added world.bytes) : world.Framed := by
  rcases batch with bytes | bytes | ⟨front, record, -, torn⟩
  · exact World.framed_of_image bytes
  · exact World.framed_of_image bytes
  · exact torn.framed

theorem Update.Outcome.framed {update : Update} {records : List RawRecord}
    {result : Except KvpError UpdateReply} {world : World}
    (outcome : update.Outcome wholeAtEnd records result world.bytes) : world.Framed := by
  rcases outcome with ⟨-, bytes⟩ | ⟨-, interrupted⟩
  · exact World.framed_of_image bytes
  cases update with
  | append mode key value => exact interrupted.framed
  | appendMultiple mode added => exact interrupted.framed
  | insert mode key value =>
      obtain ⟨final, -, batch⟩ := interrupted
      exact batch.framed
  | delete key =>
      obtain ⟨final, -, bytes⟩ := interrupted
      exact World.framed_of_image bytes
  | deleteMultiple keys =>
      obtain ⟨_, final, -, -, bytes⟩ := interrupted
      exact World.framed_of_image bytes
  | load mode added =>
      rcases interrupted with bytes | batch
      · exact World.framed_of_image bytes
      · exact batch.framed
  | clear =>
      rcases interrupted with bytes | empty
      · exact World.framed_of_image bytes
      · rw [World.Framed, empty]
        rfl

/-- A run of calls under faults: each call returns some result and the next one
begins in the state it left. -/
inductive RunsUpdates (allowed : World → Fault → Prop) : List Update → World → World → Prop where
  | nil {world : World} : RunsUpdates allowed [] world world
  | cons {update : Update} {rest : List Update} {before middle after : World}
      {result : Except KvpError UpdateReply} :
      Program.Runs (HandleStep allowed) update.perform.run before result middle →
      RunsUpdates allowed rest middle after → RunsUpdates allowed (update :: rest) before after

/-- The step lemma of the framing: one call under faults keeps it. -/
theorem framed_of_runs {world after : World} (framed : world.Framed) {update : Update}
    {result : Except KvpError UpdateReply}
    (returned : Program.Runs (HandleStep wholeAtEnd) update.perform.run world result after) :
    after.Framed := by
  have performed := @update_performs wholeAtEnd world world.records framed.bytes_eq update
  have outcome : update.Outcome wholeAtEnd world.records result after.bytes := by
    cases result with
    | ok reply => exact performed.value returned
    | error error => exact performed.error returned
  exact outcome.framed

/-- In every run in which no failing write at the end of the file stores a part of
its buffer, the file stays made of whole records and is accepted by the next call. -/
theorem faults_keep_framing {world after : World} {updates : List Update}
    (framed : world.Framed) (run : RunsUpdates wholeAtEnd updates world after) :
    after.bytes.length % recordSize = 0 ∧
      recordCountFromLen after.bytes.length = .ok (after.bytes.length / recordSize) := by
  have stillFramed : after.Framed := by
    induction run with
    | nil => exact framed
    | cons returned _ ih => exact ih (framed_of_runs framed returned)
  refine ⟨stillFramed, recordCountFromLen_eq_ok_iff.mpr ?_⟩
  exact (Nat.div_mul_cancel (Nat.dvd_of_mod_eq_zero stillFramed)).symm

/-- An existing pool without records. -/
def emptyPool : World := { file := some { bytes := [], mtime := 0 }, now := 0, bootTime := 0 }

theorem emptyPool_framed : emptyPool.Framed := rfl

/-- The last step of a write, `flush`, fails. -/
def flushFails : (call : Call) → World → Reply call × World
  | .flush, world => (.error { kind := .other }, world)
  | call, world => call.perform world

theorem faults_keep_framing_flushFails :
    ((Update.append .safe ['k'] ['v']).perform.run.run flushFails emptyPool).2.bytes.length %
        recordSize = 0 ∧
      recordCountFromLen
          ((Update.append .safe ['k'] ['v']).perform.run.run flushFails emptyPool).2.bytes.length =
        .ok (((Update.append .safe ['k'] ['v']).perform.run.run flushFails
          emptyPool).2.bytes.length / recordSize) := by
  have admitted : ∀ call world,
      HandleStep wholeAtEnd call world (flushFails call world).1 (flushFails call world).2 := by
    intro call world
    cases call with
    | flush => exact .failed .flush world { kind := .other } world.position trivial
    | _ => exact .performed _ world world.now
  exact faults_keep_framing emptyPool_framed (.cons (Program.runs_run admitted _ emptyPool) .nil)

/-- An append that stores one byte and fails leaves a file of one byte. -/
theorem torn_append_breaks_framing :
    emptyPool.Framed ∧ ∃ result after,
      Program.Runs (HandleStep anyFault) (Update.append .safe ['k'] ['v']).perform.run emptyPool
        result after ∧ after.bytes.length % recordSize ≠ 0 ∧
      ∃ io, recordCountFromLen after.bytes.length = .error io := by
  refine ⟨emptyPool_framed, _, _, Program.runs_run tearing_admitted _ emptyPool, ?_, ?_⟩
  · have length : ((Update.append .safe ['k'] ['v']).perform.run.run tearing
        emptyPool).2.bytes.length = 1 := by rfl
    rw [length]
    decide
  · exact ⟨_, rfl⟩

end AzureInit.Kvp
