import AzureInit.Foundation.DecimalText
import AzureInit.Kvp.FaultProperties

/-! How many distinct keys a pool holds. Operations that respect the cap never take it
over 1024, and `insert` is refused for the cap's sake exactly when it would. -/

set_option autoImplicit false

namespace AzureInit.Kvp

open Foundation
open Blocks (image)

/-- The operations that look at the cap, or only remove records. -/
def Update.respectsCap : Update → Bool
  | .insert .. | .load .. | .delete _ | .deleteMultiple _ | .clear => true
  | .append .. | .appendMultiple .. => false

section Records

variable {records after : List RawRecord} {key : Text}

/-- Records that were there before bring no new keys. -/
theorem card_distinctKeys_le (members : ∀ record ∈ after, record ∈ records) :
    (distinctKeys after).card ≤ (distinctKeys records).card := by
  apply Finset.card_le_card
  intro key member
  obtain ⟨record, stored, same⟩ := mem_distinctKeys_iff.mp member
  exact mem_distinctKeys_iff.mpr ⟨record, members record stored, same⟩

theorem distinctKeys_encodeAll {mode : PoolMode} {added : List (Text × Text)}
    (valid : ∀ pair ∈ added, KvpPoolStore.validateRecord mode pair.1 pair.2 = .ok ()) :
    distinctKeys (encodeAll added) = (added.map Prod.fst).toFinset := by
  have keys : (encodeAll added).map RawRecord.key = added.map Prod.fst := by
    rw [encodeAll, List.map_map]
    apply List.map_congr_left
    intro pair member
    exact (fields_encode (valid pair member)).2.1
  rw [distinctKeys, keys]

/-- The scan sees each record once, also those that a removal moves, and each key
counts once. -/
theorem insert_result (decodable : Decodable records) {mode : PoolMode} {value : Text}
    (valid : KvpPoolStore.validateRecord mode key value = .ok ()) :
    ((Update.insert mode key value).onList records).1 =
      if key ∉ distinctKeys records ∧ maxUniqueKeys ≤ (distinctKeys records).card then
        .error (.maxUniqueKeysExceeded maxUniqueKeys)
      else .ok .done := by
  simp only [Update.onList, valid]
  by_cases present : key ∈ distinctKeys records
  · have found : (records.find? (·.key == key)).isSome = true := by
      obtain ⟨record, member, same⟩ := mem_distinctKeys_iff.mp present
      exact List.find?_isSome.mpr ⟨record, member, by simpa using same⟩
    obtain ⟨target, first⟩ := Option.isSome_iff_exists.mp found
    obtain ⟨same, front, back, rfl, before⟩ := List.find?_eq_some_iff_append.mp first
    have absent : ∀ record ∈ front, record.key ≠ key := by simpa using before
    obtain ⟨last, rest, passed, wasFound, -⟩ :=
      sweep_insertion_present key value front back target decodable absent (by simpa using same)
    simp [passed, insertEnd, wasFound, present]
  · have absent : ∀ record ∈ records, record.key ≠ key :=
      fun record member same => present (mem_distinctKeys_iff.mpr ⟨record, member, same⟩)
    have seen : (records.foldl KvpPoolStore.InsertScan.pass noneSeen).uniqueKeys =
        distinctKeys records := by
      rw [KvpPoolStore.InsertScan.uniqueKeys_foldl_pass]
      simp [noneSeen, distinctKeys]
    have missing : (records.foldl KvpPoolStore.InsertScan.pass noneSeen).found ≠ true := by
      simp [noneSeen]
    rw [sweep_insertion_absent key value noneSeen records decodable absent]
    simp only [insertEnd, if_neg missing, seen]
    split
    · rename_i full
      rw [if_pos ⟨present, full⟩]
    · rename_i room
      rw [if_neg fun refused => room refused.2]

theorem insert_refused_iff (decodable : Decodable records) {mode : PoolMode} {value : Text}
    (valid : KvpPoolStore.validateRecord mode key value = .ok ()) :
    ((Update.insert mode key value).onList records).1 =
        .error (.maxUniqueKeysExceeded maxUniqueKeys) ↔
      key ∉ distinctKeys records ∧ maxUniqueKeys ≤ (distinctKeys records).card := by
  rw [insert_result decodable valid]
  split
  · rename_i refused
    simp [refused]
  · rename_i accepted
    simp [accepted]

theorem card_distinctKeys_load {mode : PoolMode} {added : List (Text × Text)}
    {reply : UpdateReply}
    (accepted : ((Update.load mode added).onList records).1 = .ok reply) :
    (distinctKeys ((Update.load mode added).onList records).2).card ≤ maxUniqueKeys := by
  simp only [Update.onList] at accepted ⊢
  split at accepted
  · cases accepted
  · rename_i uniqueKeys collected
    split at accepted
    · cases accepted
    · rename_i few
      obtain ⟨valid, rfl⟩ := validate_of_uniqueKeysOf collected
      rw [if_neg few, distinctKeys_encodeAll valid]
      exact Nat.le_of_not_lt few

/-- An insertion adds no key but its own. -/
theorem distinctKeys_insert_subset {mode : PoolMode} {key value : Text} {reply : UpdateReply}
    {after : List RawRecord}
    (achieved : (Update.insert mode key value).Achieves records reply after) :
    distinctKeys after ⊆ insert key (distinctKeys records) := by
  obtain ⟨record, rest, rfl, decoded, others⟩ := achieved
  intro other member
  obtain ⟨stored, among, rfl⟩ := mem_distinctKeys_iff.mp member
  rw [List.mem_append, List.mem_cons] at among
  rw [Finset.mem_insert]
  rcases among with front | rfl | behind
  · exact .inr (mem_distinctKeys_iff.mpr ⟨stored, List.mem_of_mem_take front, rfl⟩)
  · exact .inl (RawRecord.decodable_of_decode decoded).2.1
  · have inBack := (List.mem_filter.mp (others.mem_iff.mp behind)).1
    exact .inr (mem_distinctKeys_iff.mpr ⟨stored, List.mem_of_mem_drop inBack, rfl⟩)

theorem card_distinctKeys_insert (decodable : Decodable records) {mode : PoolMode}
    {key value : Text} {reply : UpdateReply}
    (within : (distinctKeys records).card ≤ maxUniqueKeys)
    (achieved : (Update.insert mode key value).Achieves records reply
      ((Update.insert mode key value).onList records).2)
    (accepted : ((Update.insert mode key value).onList records).1 = .ok reply) :
    (distinctKeys ((Update.insert mode key value).onList records).2).card ≤ maxUniqueKeys := by
  have bounded := Finset.card_le_card (distinctKeys_insert_subset achieved)
  by_cases present : key ∈ distinctKeys records
  · rw [Finset.insert_eq_of_mem present] at bounded
    exact bounded.trans within
  · have valid : KvpPoolStore.validateRecord mode key value = .ok () := by
      cases checked : KvpPoolStore.validateRecord mode key value with
      | ok _ => rfl
      | error error =>
          rw [Update.onList, checked] at accepted
          cases accepted
    have room : ¬ maxUniqueKeys ≤ (distinctKeys records).card := by
      intro full
      rw [(insert_refused_iff decodable valid).mpr ⟨present, full⟩] at accepted
      cases accepted
    rw [Finset.card_insert_of_notMem present] at bounded
    omega

/-- What one update within the cap leaves is within the cap. -/
theorem card_distinctKeys_onList (decodable : Decodable records) {update : Update}
    (respects : update.respectsCap = true)
    (within : (distinctKeys records).card ≤ maxUniqueKeys) :
    (distinctKeys (update.onList records).2).card ≤ maxUniqueKeys := by
  have meets := (onList_meets decodable update).1
  cases result : (update.onList records).1 with
  | error error =>
      rw [result] at meets
      rw [meets.unchanged]
      exact within
  | ok reply =>
      rw [result] at meets
      have achieved := meets.achieved
      have kept (members : ∀ record ∈ (update.onList records).2, record ∈ records) :
          (distinctKeys (update.onList records).2).card ≤ maxUniqueKeys :=
        (card_distinctKeys_le members).trans within
      cases update with
      | append | appendMultiple => cases respects
      | clear => exact Nat.zero_le _
      | delete key =>
          exact kept fun record member => (List.mem_filter.mp (achieved.2.mem_iff.mp member)).1
      | deleteMultiple keys =>
          exact kept fun record member => (List.mem_filter.mp (achieved.2.mem_iff.mp member)).1
      | load mode added => exact card_distinctKeys_load result
      | insert mode key value => exact card_distinctKeys_insert decodable within achieved result

end Records

/-! ## Runs -/

/-- A call without faults does what it does on the list of records. -/
theorem onList_of_runs {world after : World} (framed : world.Framed) {update : Update}
    {result : Except KvpError UpdateReply}
    (returned : Program.Runs (HandleStep noFaults) update.perform.run world result after) :
    result = (update.onList world.records).1 ∧
      after.bytes = image (update.onList world.records).2 := by
  have performed := @update_performs noFaults world world.records framed.bytes_eq update
  cases result with
  | ok reply =>
      exact Or.resolve_right (performed.value returned) fun fault => not_faulted_noFaults fault.1
  | error error =>
      exact Or.resolve_right (performed.error returned) fun fault => not_faulted_noFaults fault.1

/-- A well-formed pool of at most 1024 distinct keys. -/
structure World.WithinCap (world : World) : Prop extends world.WellFormed where
  few : (distinctKeys world.records).card ≤ maxUniqueKeys

theorem withinCap_of_runs {world after : World} (withinCap : world.WithinCap) {update : Update}
    (respects : update.respectsCap = true) {result : Except KvpError UpdateReply}
    (returned : Program.Runs (HandleStep noFaults) update.perform.run world result after) :
    after.WithinCap := by
  obtain ⟨-, bytes⟩ := onList_of_runs withinCap.framed returned
  have records := World.records_of_image bytes
  refine ⟨⟨World.framed_of_image bytes, ?_⟩, ?_⟩
  · rw [records]
    exact (onList_meets withinCap.decodable update).2
  · rw [records]
    exact card_distinctKeys_onList withinCap.decodable respects withinCap.few

theorem withinCap_of_run {world after : World} (withinCap : world.WithinCap)
    {updates : List Update} (respect : ∀ update ∈ updates, update.respectsCap = true)
    (run : RunsUpdates noFaults updates world after) : after.WithinCap := by
  induction run with
  | nil => exact withinCap
  | cons returned _ ih =>
      rw [List.forall_mem_cons] at respect
      exact ih (withinCap_of_runs withinCap respect.1 returned) respect.2

theorem withinCap_of_empty {world : World} (empty : world.bytes = []) : world.WithinCap := by
  have stored : world.bytes = image ([] : List RawRecord) := empty
  have records := World.records_of_image stored
  refine ⟨⟨World.framed_of_image stored, ?_⟩, ?_⟩
  · rw [records]
    exact .nil
  · rw [records]
    exact Nat.zero_le _

/-- From an empty or missing pool the operations that respect the cap never reach more
than 1024 distinct keys, whatever they return; on every well-formed pool a valid `insert`
is refused for the cap exactly when its key is a new one and 1024 others are there. -/
theorem unique_keys_are_capped :
    (∀ (world after : World) (updates : List Update), world.bytes = [] →
      (∀ update ∈ updates, update.respectsCap = true) →
      RunsUpdates noFaults updates world after → (distinctKeys after.records).card ≤ 1024) ∧
    ∀ (world after : World) (mode : PoolMode) (key value : Text)
      (result : Except KvpError UpdateReply), world.WellFormed →
      KvpPoolStore.validateRecord mode key value = .ok () →
      Program.Runs (HandleStep noFaults) (Update.insert mode key value).perform.run world result
        after →
      (result = .error (.maxUniqueKeysExceeded maxUniqueKeys) ↔
        key ∉ distinctKeys world.records ∧ 1024 ≤ (distinctKeys world.records).card) := by
  constructor
  · intro world after updates empty respect run
    exact (withinCap_of_run (withinCap_of_empty empty) respect run).few
  · intro world after mode key value result wellFormed valid returned
    rw [(onList_of_runs wellFormed.framed returned).1]
    exact insert_refused_iff wellFormed.decodable valid

/-- A record for each of the numbers below a count. -/
def numberedRecords (count : Nat) : List (Text × Text) :=
  (List.range count).map fun number => (Decimal.digits number, ['v'])

theorem map_fst_numberedRecords (count : Nat) :
    (numberedRecords count).map Prod.fst = (List.range count).map Decimal.digits :=
  List.map_map

theorem numberedRecords_valid : ∀ pair ∈ numberedRecords maxUniqueKeys,
    KvpPoolStore.validateRecord .safe pair.1 pair.2 = .ok () := by
  have checked : ((numberedRecords maxUniqueKeys).all fun pair =>
      decide (KvpPoolStore.validateRecord .safe pair.1 pair.2 = .ok ())) = true := by
    decide +kernel
  exact fun pair member => of_decide_eq_true (List.all_eq_true.mp checked pair member)

/-- A pool file with the records of a list. -/
def storedPool (records : List (Text × Text)) : World where
  file := some { bytes := image (encodeAll records), mtime := 0 }
  now := 0
  bootTime := 0

theorem storedPool_records (records : List (Text × Text)) :
    (storedPool records).records = encodeAll records :=
  World.records_of_image rfl

section Stored

variable {mode : PoolMode} {pairs : List (Text × Text)}
  (valid : ∀ pair ∈ pairs, KvpPoolStore.validateRecord mode pair.1 pair.2 = .ok ())
include valid

theorem storedPool_wellFormed : (storedPool pairs).WellFormed := by
  refine ⟨World.framed_of_image rfl, ?_⟩
  rw [storedPool_records]
  exact decodable_encodeAll valid

theorem distinctKeys_storedPool :
    distinctKeys (storedPool pairs).records = (pairs.map Prod.fst).toFinset := by
  rw [storedPool_records, distinctKeys_encodeAll valid]

end Stored

theorem card_numberedKeys (count : Nat) :
    ((numberedRecords count).map Prod.fst).toFinset.card = count := by
  rw [map_fst_numberedRecords,
    List.toFinset_card_of_nodup (List.nodup_range.map Decimal.digits_injective), List.length_map,
    List.length_range]

theorem runsUpdates_afterUpdates (updates : List Update) (world : World) :
    RunsUpdates noFaults updates world (afterUpdates updates world) := by
  induction updates generalizing world with
  | nil => exact .nil
  | cons update rest ih => exact .cons (runs_execute noFaults _ world) (ih _)

/-- A full pool that is loaded stays within the cap, also where one more key is inserted;
that key is refused, and a key that is there is not. -/
theorem unique_keys_are_capped_fullPool :
    (distinctKeys (afterUpdates [.load .safe (numberedRecords maxUniqueKeys),
      .insert .safe ['k'] ['v']] missingPool).records).card ≤ 1024 ∧
    ((Update.insert .safe ['k'] ['v']).execute (storedPool (numberedRecords maxUniqueKeys))).1 =
      .error (.maxUniqueKeysExceeded maxUniqueKeys) ∧
    ((Update.insert .safe ['7'] ['w']).execute (storedPool (numberedRecords maxUniqueKeys))).1 ≠
      .error (.maxUniqueKeysExceeded maxUniqueKeys) := by
  have keys := distinctKeys_storedPool numberedRecords_valid
  have wellFormed := storedPool_wellFormed numberedRecords_valid
  refine ⟨?_, ?_, ?_⟩
  · exact unique_keys_are_capped.1 missingPool _ _ rfl
      (List.forall_mem_cons.mpr ⟨rfl, List.forall_mem_singleton.mpr rfl⟩)
      (runsUpdates_afterUpdates _ _)
  · refine (unique_keys_are_capped.2 _ _ .safe ['k'] ['v'] _ wellFormed rfl
      (runs_execute noFaults _ _)).mpr ⟨?_, ?_⟩
    · rw [keys, List.mem_toFinset, map_fst_numberedRecords]
      intro member
      obtain ⟨number, -, digits⟩ := List.mem_map.mp member
      exact @Decimal.not_mem_digits number 'k' rfl (digits ▸ List.mem_singleton_self 'k')
    · rw [keys, card_numberedKeys]
      exact Nat.le_refl _
  · intro refused
    have full := (unique_keys_are_capped.2 _ _ .safe ['7'] ['w'] _ wellFormed rfl
      (runs_execute noFaults _ _)).mp refused
    rw [keys, List.mem_toFinset, map_fst_numberedRecords] at full
    exact full.1 (List.mem_map.mpr ⟨7, List.mem_range.mpr (by decide), rfl⟩)

end AzureInit.Kvp
