import AzureInit.Kvp.ListRefinement

/-! What an update of some keys does to the reading of all others. Removal moves
the final records forward, so a key may read as an earlier one of its values. -/

set_option autoImplicit false

namespace AzureInit.Kvp

open Foundation
open Blocks (image)
open Sweep (Edit sweep Cut)

/-- The keys of the updates that replace or remove the records of given keys. -/
def Update.targets : Update → Option (Text → Bool)
  | .insert _ key _ => some (· == key)
  | .delete key => some (· == key)
  | .deleteMultiple keys => some fun key => keys.contains key
  | .append .. | .appendMultiple .. | .load .. | .clear => none

/-! ## Records the passes spare -/

section Spared

variable {spared : RawRecord → Bool}

theorem spared_of_removal {β : Type} {targeted : Text → Bool} {note : β → β}
    (untargeted : ∀ record, spared record = true → targeted record.key = false) (noted : β)
    (record : RawRecord) (edit : Edit RawRecord) (next : β)
    (stepped : removal targeted note noted record = .ok (edit, next))
    (spare : spared record = true) : edit = .keep :=
  removal_keep noted record edit next stepped (by rw [untargeted record spare]; rfl)

theorem spared_of_insertion {target value : Text}
    (untargeted : ∀ record, spared record = true → record.key ≠ target)
    (scan : KvpPoolStore.InsertScan) (record : RawRecord) (edit : Edit RawRecord)
    (next : KvpPoolStore.InsertScan)
    (stepped : insertion target value scan record = .ok (edit, next))
    (spare : spared record = true) : edit = .keep :=
  insertion_keep scan record edit next stepped (untargeted record spare)

end Spared

/-- The records of a key keep their multiset, and their order if none of them
lies behind the final length. -/
def KeepsRecordsOf (key : Text) (before after : List RawRecord) : Prop :=
  (after.filter (·.key == key)).Perm (before.filter (·.key == key)) ∧
    ((∀ record ∈ before.drop after.length, record.key ≠ key) →
      after.filter (·.key == key) = before.filter (·.key == key))

private theorem untargeted_of_key {targeted : Text → Bool} {key : Text}
    (other : targeted key = false) (record : RawRecord) (same : (record.key == key) = true) :
    targeted record.key = false := by
  rw [eq_of_beq same, other]

theorem sweep_removal_keeps {β : Type} (targeted : Text → Bool) (note : β → β) {key : Text}
    (other : targeted key = false) (noted : β) (records : List RawRecord) :
    KeepsRecordsOf key records (sweep (removal targeted note) noted records).2 := by
  have kept : ∀ noted head edit next, removal targeted note noted head = .ok (edit, next) →
      (head.key == key) = true → edit = .keep :=
    spared_of_removal (untargeted_of_key other)
  have fresh : ∀ noted head value next, removal targeted note noted head = .ok (.replace value, next) →
      (value.key == key) = false :=
    fun noted head value next stepped => (removal_no_replace noted head value next stepped).elim
  refine ⟨Sweep.filter_sweep_perm kept fresh noted records, fun front => ?_⟩
  exact Sweep.filter_sweep_eq kept fresh noted records (by simpa using front)

theorem insertion_replace_key {target value : Text} (nulFree : '\x00' ∉ value)
    (fits : Utf8.byteLength value ≤ wireMaxValueBytes) (scan : KvpPoolStore.InsertScan)
    (record place : RawRecord) (next : KvpPoolStore.InsertScan)
    (stepped : insertion target value scan record = .ok (.replace place, next)) :
    place.key = target := by
  by_cases decodable : record.Decodable
  · rw [insertion_of_decodable decodable] at stepped
    split at stepped
    · rename_i same
      split at stepped
      · simp at stepped
      · obtain ⟨placed, -⟩ := Prod.mk.inj (Except.ok.inj stepped)
        obtain rfl := Edit.replace.inj placed
        rw [← same]
        exact (RawRecord.decodable_of_decode
          (RawRecord.decode_setValue decodable nulFree fits)).2.1
    · simp at stepped
  · obtain ⟨error, undecodable⟩ := RawRecord.not_decodable_iff.mp decodable
    simp only [insertion, undecodable] at stepped
    cases stepped

theorem sweep_insertion_keeps {target value key : Text} (other : key ≠ target)
    (nulFree : '\x00' ∉ value) (fits : Utf8.byteLength value ≤ wireMaxValueBytes)
    (scan : KvpPoolStore.InsertScan) (records : List RawRecord) :
    KeepsRecordsOf key records (sweep (insertion target value) scan records).2 := by
  have kept : ∀ scan head edit next, insertion target value scan head = .ok (edit, next) →
      (head.key == key) = true → edit = .keep :=
    spared_of_insertion fun record same => by rwa [eq_of_beq same]
  have fresh : ∀ scan head place next, insertion target value scan head = .ok (.replace place, next) →
      (place.key == key) = false := by
    intro scan head place next stepped
    rw [insertion_replace_key nulFree fits scan head place next stepped]
    exact beq_eq_false_iff_ne.mpr (Ne.symm other)
  refine ⟨Sweep.filter_sweep_perm kept fresh scan records, fun front => ?_⟩
  exact Sweep.filter_sweep_eq kept fresh scan records (by simpa using front)

theorem KeepsRecordsOf.refl (key : Text) (records : List RawRecord) :
    KeepsRecordsOf key records records :=
  ⟨.refl _, fun _ => rfl⟩

theorem keepsRecordsOf_append_other {key : Text} {records : List RawRecord} {record : RawRecord}
    (other : record.key ≠ key) : KeepsRecordsOf key records (records ++ [record]) := by
  have same : (records ++ [record]).filter (·.key == key) = records.filter (·.key == key) := by
    simp [other]
  rw [KeepsRecordsOf, same]
  exact ⟨.refl _, fun _ => rfl⟩

private theorem insert_keeps {records : List RawRecord} (decodable : Decodable records)
    (mode : PoolMode) {target key : Text} (value : Text) (other : key ≠ target) :
    KeepsRecordsOf key records ((Update.insert mode target value).onList records).2 := by
  simp only [Update.onList]
  cases accepted : KvpPoolStore.validateRecord mode target value with
  | error error => exact .refl key records
  | ok _ =>
      dsimp only
      cases first : records.find? (·.key == target) with
      | none =>
          have absent : ∀ record ∈ records, record.key ≠ target := by
            simpa using List.find?_eq_none.mp first
          have missing : (records.foldl KvpPoolStore.InsertScan.pass noneSeen).found ≠ true := by
            simp [noneSeen]
          rw [sweep_insertion_absent target value noneSeen records decodable absent]
          simp only [insertEnd, if_neg missing]
          split
          · exact .refl key records
          · refine keepsRecordsOf_append_other ?_
            rw [(fields_encode accepted).2.1]
            exact Ne.symm other
      | some present =>
          obtain ⟨same, front, back, rfl, before⟩ := List.find?_eq_some_iff_append.mp first
          obtain ⟨nulFree, fits⟩ := value_of_validateRecord accepted
          have kept := sweep_insertion_keeps other nulFree fits noneSeen (front ++ present :: back)
          obtain ⟨last, rest, passed, found, -⟩ :=
            sweep_insertion_present target value front back present decodable
              (by simpa using before) (by simpa using same)
          rw [passed] at kept
          simp only [passed, insertEnd, found, if_true]
          exact kept

/-- An update keeps the records of every key it does not target. -/
theorem onList_keeps {records : List RawRecord} (decodable : Decodable records)
    {update : Update} {targeted : Text → Bool} (targets : update.targets = some targeted)
    {key : Text} (other : targeted key = false) :
    KeepsRecordsOf key records (update.onList records).2 := by
  cases update with
  | insert mode target value =>
      obtain rfl := Option.some.inj targets
      exact insert_keeps decodable mode value (by simpa using other)
  | delete target =>
      obtain rfl := Option.some.inj targets
      simp only [Update.onList]
      cases validateKey target usizeMax with
      | error error => exact .refl key records
      | ok _ =>
          have kept := sweep_removal_keeps (· == target) (fun _ => true) other false records
          dsimp only
          generalize sweep (removal (· == target) fun _ => true) false records = outcome at kept
          obtain ⟨_ | _, final⟩ := outcome <;> exact kept
  | deleteMultiple keys =>
      obtain rfl := Option.some.inj targets
      simp only [Update.onList]
      cases collected : KvpPoolStore.collectKeys keys with
      | error error => exact .refl key records
      | ok targeted =>
          dsimp only
          split
          · exact .refl key records
          have untargeted : decide (key ∈ targeted) = false := by
            simpa [mem_collectKeys collected] using other
          have kept := sweep_removal_keeps (· ∈ targeted) (fun count => count + 1)
            untargeted 0 records
          generalize sweep (removal (· ∈ targeted) fun count => count + 1) 0 records = outcome
            at kept
          obtain ⟨_ | _, final⟩ := outcome <;> exact kept
  | append mode key value => cases targets
  | appendMultiple mode added => cases targets
  | load mode added => cases targets
  | clear => cases targets

/-! ## Reading other keys -/

theorem lastValue_contents (records : List RawRecord) (key : Text) :
    lastValue (contents records) key =
      ((records.filter (·.key == key)).getLast?).map RawRecord.value := by
  rw [lastValue, contents, List.filter_map, List.getLast?_map, Option.map_map]
  rfl

/-- The value read for a key is one of the stored values of that key. -/
theorem exists_of_lastValue {before after : List RawRecord} {key value : Text}
    (kept : (after.filter (·.key == key)).Perm (before.filter (·.key == key)))
    (found : lastValue (contents after) key = some value) : (key, value) ∈ contents before := by
  rw [lastValue_contents, Option.map_eq_some_iff] at found
  obtain ⟨record, last, rfl⟩ := found
  have member := kept.mem_iff.mp (List.mem_of_getLast? last)
  obtain ⟨inBefore, same⟩ := List.mem_filter.mp member
  exact List.mem_map.mpr ⟨record, inBefore, by rw [eq_of_beq same]⟩

private theorem lastValue_isSome_of_perm {before after : List RawRecord} {key : Text}
    (kept : (after.filter (·.key == key)).Perm (before.filter (·.key == key))) :
    (lastValue (contents after) key).isSome = (lastValue (contents before) key).isSome := by
  rw [lastValue_contents, lastValue_contents, Option.isSome_map, Option.isSome_map,
    Bool.eq_iff_iff, List.getLast?_isSome, List.getLast?_isSome]
  exact not_congr ⟨fun empty => (empty ▸ kept).nil_eq.symm, fun empty => (empty ▸ kept).eq_nil⟩

/-- Records of a key that all hold one value read as that value in any order. -/
private theorem lastValue_of_one_value {before after : List RawRecord} {key : Text}
    (kept : (after.filter (·.key == key)).Perm (before.filter (·.key == key)))
    (oneValue : ∀ first ∈ contents before, ∀ second ∈ contents before,
      first.1 = key → second.1 = key → first.2 = second.2) :
    lastValue (contents after) key = lastValue (contents before) key := by
  cases foundAfter : lastValue (contents after) key with
  | none =>
      have same := lastValue_isSome_of_perm kept
      rw [foundAfter] at same
      exact (Option.not_isSome_iff_eq_none.mp (by simp [← same])).symm
  | some value =>
      have same := lastValue_isSome_of_perm kept
      rw [foundAfter] at same
      obtain ⟨old, foundBefore⟩ := Option.isSome_iff_exists.mp same.symm
      have stored := exists_of_lastValue kept foundAfter
      have storedOld := exists_of_lastValue (.refl _) foundBefore
      rw [foundBefore]
      exact congrArg some (oneValue _ stored _ storedOld rfl rfl)

/-- The values of a key are the same before and after, or one of them is read. -/
theorem lastValue_of_keeps {before after : List RawRecord} {key : Text}
    (kept : KeepsRecordsOf key before after)
    (stable : (∀ first ∈ contents before, ∀ second ∈ contents before,
        first.1 = key → second.1 = key → first.2 = second.2) ∨
      ∀ record ∈ before.drop after.length, record.key ≠ key) :
    lastValue (contents after) key = lastValue (contents before) key := by
  rcases stable with oneValue | front
  · exact lastValue_of_one_value kept.1 oneValue
  · rw [lastValue_contents, lastValue_contents, kept.2 front]

/-- Behind an update, a key it does not target reads as before if all its records
hold one value or none of them lay behind the new end; it always reads as one of
its stored values, and as none only if it had none. -/
theorem other_keys_keep_reading {world : World} (wellFormed : world.WellFormed)
    {update : Update} {targeted : Text → Bool} (targets : update.targets = some targeted)
    {key : Text} (other : targeted key = false) :
    ∃ before after : HashMap Text,
      (execute KvpPoolStore.entries.run world).1 = .ok before ∧
      (execute KvpPoolStore.entries.run (update.execute world).2).1 = .ok after ∧
      (validateKey key usizeMax = .ok () →
        (execute (KvpPoolStore.read key).run world).1 = .ok (before.lookup key) ∧
        (execute (KvpPoolStore.read key).run (update.execute world).2).1 =
          .ok (after.lookup key)) ∧
      ((∀ first ∈ contents world.records, ∀ second ∈ contents world.records,
          first.1 = key → second.1 = key → first.2 = second.2) ∨
        (∀ record ∈ world.records.drop (update.execute world).2.records.length,
          record.key ≠ key) →
        after.lookup key = before.lookup key) ∧
      (after.lookup key).isSome = (before.lookup key).isSome ∧
      ∀ value, after.lookup key = some value → (key, value) ∈ contents world.records := by
  have reached := (update_execute_meets wellFormed update).2
  obtain ⟨before, readBefore, lookupBefore⟩ := execute_entries wellFormed
  obtain ⟨after, readAfter, lookupAfter⟩ := execute_entries reached
  have kept : KeepsRecordsOf key world.records (update.execute world).2.records := by
    rw [World.records_of_image (update_execute wellFormed.framed update).2]
    exact onList_keeps wellFormed.decodable targets other
  refine ⟨before, after, readBefore, readAfter, fun valid => ?_, fun stable => ?_, ?_, ?_⟩
  · rw [lookupBefore, lookupAfter]
    exact ⟨execute_read wellFormed valid, execute_read reached valid⟩
  · rw [lookupBefore, lookupAfter, lastValue_of_keeps kept stable]
  · rw [lookupBefore, lookupAfter, lastValue_isSome_of_perm kept.1]
  · intro value found
    rw [lookupAfter] at found
    exact exists_of_lastValue kept.1 found

/-- A key `k` in front of two records of a key `a`. -/
def duplicatesBehind : World where
  file := some {
    bytes := image [RawRecord.encode ['k'] ['0'], RawRecord.encode ['a'] ['1'],
      RawRecord.encode ['a'] ['2']]
    mtime := 0 }
  now := 0
  bootTime := 0

private theorem duplicatesBehind_records : duplicatesBehind.records =
    [RawRecord.encode ['k'] ['0'], RawRecord.encode ['a'] ['1'], RawRecord.encode ['a'] ['2']] :=
  World.records_of_image rfl

theorem duplicatesBehind_wellFormed : duplicatesBehind.WellFormed := by
  refine ⟨World.framed_of_image rfl, fun record member => ?_⟩
  rw [duplicatesBehind_records] at member
  simp only [List.mem_cons, List.not_mem_nil, or_false] at member
  rcases member with rfl | rfl | rfl <;> exact (@fields_encode .safe _ _ (by decide)).1

/-- Deleting `k` moves the last record of `a` in front of its other one. -/
theorem delete_changes_other_key :
    duplicatesBehind.WellFormed ∧
      ((Update.delete ['k']).execute duplicatesBehind).1 = .ok (.found true) ∧
      (execute (KvpPoolStore.read ['a']).run duplicatesBehind).1 = .ok (some ['2']) ∧
      (execute (KvpPoolStore.read ['a']).run
        ((Update.delete ['k']).execute duplicatesBehind).2).1 = .ok (some ['1']) := by
  obtain ⟨firstDecodable, firstKey, firstValue⟩ := @fields_encode .safe ['k'] ['0'] (by decide)
  obtain ⟨secondDecodable, secondKey, secondValue⟩ := @fields_encode .safe ['a'] ['1'] (by decide)
  obtain ⟨thirdDecodable, thirdKey, thirdValue⟩ := @fields_encode .safe ['a'] ['2'] (by decide)
  have deleteValid : validateKey ['k'] usizeMax = .ok () := by decide
  have readValid : validateKey ['a'] usizeMax = .ok () := by decide
  have wellFormed := duplicatesBehind_wellFormed
  have records := duplicatesBehind_records
  obtain ⟨result, bytes⟩ := update_execute wellFormed.framed (.delete ['k'])
  have reached := (update_execute_meets wellFormed (.delete ['k'])).2
  have swapped : (Update.delete ['k']).onList duplicatesBehind.records =
      (.ok (.found true), [RawRecord.encode ['a'] ['2'], RawRecord.encode ['a'] ['1']]) := by
    have removed : removal (· == ['k']) (fun _ => true) false (RawRecord.encode ['k'] ['0']) =
        .ok (.remove, true) := by
      rw [removal_of_decodable firstDecodable, firstKey]
      rfl
    have keptThird : removal (· == ['k']) (fun _ => true) true (RawRecord.encode ['a'] ['2']) =
        .ok (.keep, true) := by
      rw [removal_of_decodable thirdDecodable, thirdKey]
      rfl
    have keptSecond : removal (· == ['k']) (fun _ => true) true (RawRecord.encode ['a'] ['1']) =
        .ok (.keep, true) := by
      rw [removal_of_decodable secondDecodable, secondKey]
      rfl
    have gap := Sweep.closeGap_concat [RawRecord.encode ['a'] ['1']] (RawRecord.encode ['a'] ['2'])
    rw [List.singleton_append] at gap
    simp only [records, Update.onList, deleteValid]
    rw [Sweep.sweep_cons_ok removed, Edit.remaining_remove, gap, Sweep.sweep_cons_ok keptThird,
      Edit.remaining_keep, Sweep.sweep_cons_ok keptSecond]
    simp [swept]
  refine ⟨wellFormed, by rw [result, swapped], ?_, ?_⟩
  · rw [execute_read wellFormed readValid, records, lastValue_contents]
    simp [secondKey, thirdKey, firstKey, thirdValue]
  · rw [execute_read reached readValid, World.records_of_image bytes, swapped, lastValue_contents]
    simp [secondKey, thirdKey, secondValue]

theorem other_keys_keep_reading_duplicatesBehind :
    ∃ before after : HashMap Text,
      (execute KvpPoolStore.entries.run duplicatesBehind).1 = .ok before ∧
      (execute KvpPoolStore.entries.run
        ((Update.delete ['k']).execute duplicatesBehind).2).1 = .ok after ∧
      (after.lookup ['a']).isSome = (before.lookup ['a']).isSome := by
  obtain ⟨before, after, readBefore, readAfter, -, -, same, -⟩ :=
    @other_keys_keep_reading duplicatesBehind duplicatesBehind_wellFormed (.delete ['k'])
      (· == ['k']) rfl ['a'] (by decide)
  exact ⟨before, after, readBefore, readAfter, same⟩

end AzureInit.Kvp
