import AzureInit.Kvp.ListModelProperties
import AzureInit.Kvp.UpdateProperties

/-! The pool store refines a list of records. Along every faultless sequence of
updates the file stays well formed, each update does to the stored records what
its purpose says, and reading returns what is stored. -/

set_option autoImplicit false

namespace AzureInit.Kvp

open Foundation
open Blocks (image)
open Sweep (sweep)

/-- The whole records in the pool file. -/
def World.records (world : World) : List RawRecord := Blocks.wholeBlocks recordSize world.bytes

/-- Whole records only, all of them valid UTF-8; also a missing or an empty pool. -/
structure World.WellFormed (world : World) : Prop where
  framed : world.Framed
  decodable : Decodable world.records

theorem World.records_of_image {world : World} {records : List RawRecord}
    (bytes : world.bytes = image records) : world.records = records := by
  rw [World.records, bytes, Blocks.wholeBlocks_image recordSize_pos]

theorem World.Framed.bytes_eq {world : World} (framed : world.Framed) :
    world.bytes = image world.records :=
  (Blocks.image_wholeBlocks recordSize_pos framed).symm

/-- The last value stored for a key. -/
def lastValue (pairs : List (Text × Text)) (key : Text) : Option Text :=
  (pairs.filter (·.1 == key)).getLast?.map Prod.snd

/-- What a successful update does to the list of records, in terms of its purpose. -/
def Update.Achieves (before : List RawRecord) (reply : UpdateReply) (after : List RawRecord) :
    Update → Prop
  | .append _ key value => after = before ++ [RawRecord.encode key value]
  | .appendMultiple _ added => after = before ++ encodeAll added
  | .load _ added => after = encodeAll added
  | .clear => after = []
  | .delete key =>
      reply = .found (before.any (·.key == key)) ∧
        after.Perm (before.filter fun record => !(record.key == key))
  | .deleteMultiple keys =>
      reply = .removed (before.countP (·.key ∈ keys)) ∧
        after.Perm (before.filter fun record => !decide (record.key ∈ keys))
  | .insert _ key value =>
      ∃ record rest, after = before.take (before.findIdx (·.key == key)) ++ record :: rest ∧
        record.decode = .ok (key, value) ∧
        rest.Perm ((before.drop (before.findIdx (·.key == key))).filter
          fun record => !(record.key == key))

def distinctKeys (records : List RawRecord) : Finset Text := (records.map RawRecord.key).toFinset

/-- The error of a check. -/
def refused (checked : Except KvpError Unit) : Option KvpError :=
  match checked with
  | .ok () => none
  | .error error => some error

def cappedIf (full : Prop) [Decidable full] : Option KvpError :=
  if full then some (.maxUniqueKeysExceeded maxUniqueKeys) else none

/-- The error that an update of a list of records is refused with, if it is. Only a key that
is not there yet counts against the cap, and a deletion is not refused for a missing key. -/
def Update.refusal (before : List RawRecord) : Update → Option KvpError
  | .append mode key value => refused (KvpPoolStore.validateRecord mode key value)
  | .appendMultiple mode added => refused (validateAll mode added)
  | .load mode added =>
      (refused (validateAll mode added)).or
        (cappedIf (maxUniqueKeys < (added.map Prod.fst).toFinset.card))
  | .clear => none
  | .delete key => refused (validateKey key usizeMax)
  | .deleteMultiple keys => refused (keys.forM fun key => validateKey key usizeMax)
  | .insert mode key value =>
      (refused (KvpPoolStore.validateRecord mode key value)).or
        (cappedIf (key ∉ distinctKeys before ∧ maxUniqueKeys ≤ (distinctKeys before).card))

/-- An update is refused and leaves the list as it was, or it achieves its purpose. -/
def Update.Meets (update : Update) (before : List RawRecord)
    (result : Except KvpError UpdateReply) (after : List RawRecord) : Prop :=
  match update.refusal before with
  | some error => result = .error error ∧ after = before
  | none => ∃ reply, result = .ok reply ∧ update.Achieves before reply after

section Meets

variable {update : Update} {before after : List RawRecord} {result : Except KvpError UpdateReply}

theorem Update.meets_of_refused {error : KvpError} (refusal : update.refusal before = some error)
    (unchanged : result = .error error ∧ after = before) : update.Meets before result after := by
  rw [Update.Meets, refusal]
  exact unchanged

theorem Update.meets_of_accepted {reply : UpdateReply} (refusal : update.refusal before = none)
    (achieved : update.Achieves before reply after) : update.Meets before (.ok reply) after := by
  rw [Update.Meets, refusal]
  exact ⟨reply, rfl, achieved⟩

theorem Update.Meets.unchanged {error : KvpError} (meets : update.Meets before (.error error) after) :
    after = before := by
  unfold Update.Meets at meets
  split at meets
  · exact meets.2
  · obtain ⟨reply, unequal, -⟩ := meets
    cases unequal

theorem Update.Meets.achieved {reply : UpdateReply} (meets : update.Meets before (.ok reply) after) :
    update.Achieves before reply after := by
  unfold Update.Meets at meets
  split at meets
  · cases meets.1
  · obtain ⟨returned, same, achieved⟩ := meets
    obtain rfl := Except.ok.inj same
    exact achieved

end Meets

theorem mem_distinctKeys_iff {records : List RawRecord} {key : Text} :
    key ∈ distinctKeys records ↔ ∃ record ∈ records, record.key = key := by
  simp [distinctKeys]

/-! ## Validated records -/

theorem validateRecord_eq_ok_iff {mode : PoolMode} {key value : Text} :
    KvpPoolStore.validateRecord mode key value = .ok () ↔
      validateKey key mode.maxKeySize = .ok () ∧ validateValue value mode.maxValueSize = .ok () := by
  rw [KvpPoolStore.validateRecord]
  cases validateKey key mode.maxKeySize with
  | error error => simp [bind, Except.bind]
  | ok value => simp [bind, Except.bind]

theorem value_of_validateRecord {mode : PoolMode} {key value : Text}
    (accepted : KvpPoolStore.validateRecord mode key value = .ok ()) :
    '\x00' ∉ value ∧ Utf8.byteLength value ≤ wireMaxValueBytes := by
  have valid := validateValue_eq_ok_iff.mp (validateRecord_eq_ok_iff.mp accepted).2
  exact ⟨valid.1, valid.2.trans mode.maxValueSize_le⟩

/-- A record that passes validation is stored without loss. -/
theorem decode_encode_of_validateRecord {mode : PoolMode} {key value : Text}
    (accepted : KvpPoolStore.validateRecord mode key value = .ok ()) :
    (RawRecord.encode key value).decode = .ok (key, value) := by
  have keyValid := validateKey_eq_ok_iff.mp (validateRecord_eq_ok_iff.mp accepted).1
  obtain ⟨nulFree, fits⟩ := value_of_validateRecord accepted
  exact RawRecord.decode_encode keyValid.2.1 (keyValid.2.2.trans mode.maxKeySize_le) nulFree fits

/-- What a validated record decodes to. -/
theorem fields_encode {mode : PoolMode} {key value : Text}
    (accepted : KvpPoolStore.validateRecord mode key value = .ok ()) :
    (RawRecord.encode key value).Decodable ∧ (RawRecord.encode key value).key = key ∧
      (RawRecord.encode key value).value = value :=
  RawRecord.decodable_of_decode (decode_encode_of_validateRecord accepted)

theorem validateAll_eq_ok_iff {mode : PoolMode} {added : List (Text × Text)} :
    validateAll mode added = .ok () ↔
      ∀ pair ∈ added, KvpPoolStore.validateRecord mode pair.1 pair.2 = .ok () := by
  induction added with
  | nil => simp [validateAll, pure, Except.pure]
  | cons head tail ih =>
      change (KvpPoolStore.validateRecord mode head.1 head.2 >>= fun _ => validateAll mode tail) =
        .ok () ↔ _
      cases valid : KvpPoolStore.validateRecord mode head.1 head.2 with
      | error error => simp [valid, bind, Except.bind]
      | ok _ => simpa [valid, bind, Except.bind] using ih

/-- Both loops that validate and collect keys, `load`'s and `delete_multiple`'s. -/
private theorem collect_fold {α : Type} (check : α → Except KvpError Unit) (keyOf : α → Text)
    (items : List α) (initial : Finset Text) :
    items.foldlM (fun keys item => do
      check item
      return insert (keyOf item) keys) initial =
        (items.forM check).map fun _ => initial ∪ (items.map keyOf).toFinset := by
  induction items generalizing initial with
  | nil =>
      change Except.ok initial = Except.ok (initial ∪ ∅)
      rw [Finset.union_empty]
  | cons head tail ih =>
      have checks : (head :: tail).forM check = (check head >>= fun _ => tail.forM check) := rfl
      rw [List.foldlM_cons, checks]
      cases check head with
      | error error => rfl
      | ok _ =>
          have both : insert (keyOf head) initial ∪ (tail.map keyOf).toFinset =
              initial ∪ ((head :: tail).map keyOf).toFinset := by
            ext key
            simp
          rw [← both]
          exact ih (insert (keyOf head) initial)

theorem uniqueKeysOf_eq (mode : PoolMode) (added : List (Text × Text)) :
    KvpPoolStore.uniqueKeysOf mode added =
      (validateAll mode added).map fun _ => (added.map Prod.fst).toFinset := by
  have collected := collect_fold
    (fun pair : Text × Text => KvpPoolStore.validateRecord mode pair.1 pair.2) Prod.fst added ∅
  rwa [Finset.empty_union] at collected

theorem collectKeys_eq (keys : List Text) :
    KvpPoolStore.collectKeys keys =
      (keys.forM fun key => validateKey key usizeMax).map fun _ => keys.toFinset := by
  have collected := collect_fold (validateKey · usizeMax) id keys ∅
  rwa [Finset.empty_union, List.map_id] at collected

theorem validate_of_uniqueKeysOf {mode : PoolMode} {added : List (Text × Text)}
    {uniqueKeys : Finset Text} (accepted : KvpPoolStore.uniqueKeysOf mode added = .ok uniqueKeys) :
    (∀ pair ∈ added, KvpPoolStore.validateRecord mode pair.1 pair.2 = .ok ()) ∧
      uniqueKeys = (added.map Prod.fst).toFinset := by
  rw [uniqueKeysOf_eq] at accepted
  cases valid : validateAll mode added with
  | error error =>
      rw [valid] at accepted
      cases accepted
  | ok _ =>
      rw [valid] at accepted
      exact ⟨validateAll_eq_ok_iff.mp valid, (Except.ok.inj accepted).symm⟩

theorem mem_collectKeys {keys : List Text} {targeted : Finset Text}
    (accepted : KvpPoolStore.collectKeys keys = .ok targeted) {key : Text} :
    key ∈ targeted ↔ key ∈ keys := by
  rw [collectKeys_eq] at accepted
  cases valid : keys.forM fun key => validateKey key usizeMax with
  | error error =>
      rw [valid] at accepted
      cases accepted
  | ok _ =>
      rw [valid] at accepted
      rw [← Except.ok.inj accepted, List.mem_toFinset]

theorem decodable_encodeAll {mode : PoolMode} {added : List (Text × Text)}
    (valid : ∀ pair ∈ added, KvpPoolStore.validateRecord mode pair.1 pair.2 = .ok ()) :
    Decodable (encodeAll added) := by
  intro record member
  obtain ⟨pair, inAdded, rfl⟩ := List.mem_map.mp member
  exact (fields_encode (valid pair inAdded)).1

theorem Decodable.append {left right : List RawRecord} (leftDecodable : Decodable left)
    (rightDecodable : Decodable right) : Decodable (left ++ right) := by
  intro record member
  rcases List.mem_append.mp member with inLeft | inRight
  · exact leftDecodable record inLeft
  · exact rightDecodable record inRight

/-! ## One update -/

theorem Decodable.filter {records : List RawRecord} (decodable : Decodable records)
    (chosen : RawRecord → Bool) : Decodable (records.filter chosen) :=
  fun record member => decodable record (List.mem_filter.mp member).1

private theorem iterate_found (records : List RawRecord) (chosen : RawRecord → Bool) :
    (fun _ => true)^[records.countP chosen] false = records.any chosen := by
  rw [Bool.eq_iff_iff, List.any_eq_true, ← List.countP_pos_iff]
  cases records.countP chosen with
  | zero => simp
  | succ count => simp [Function.iterate_succ_apply']

private theorem iterate_count (count : Nat) : (fun removed => removed + 1)^[count] 0 = count := by
  induction count with
  | zero => rfl
  | succ count ih => rw [Function.iterate_succ_apply', ih]

private theorem delete_meets {records : List RawRecord} (decodable : Decodable records)
    (key : Text) :
    (Update.delete key).Meets records ((Update.delete key).onList records).1
        ((Update.delete key).onList records).2 ∧
      Decodable ((Update.delete key).onList records).2 := by
  simp only [Update.onList]
  cases valid : validateKey key usizeMax with
  | error error =>
      exact ⟨Update.meets_of_refused (by rw [Update.refusal, valid, refused]) ⟨rfl, rfl⟩, decodable⟩
  | ok _ =>
      have left := sweep_removal_perm (· == key) (fun _ => true) false records decodable
      have result := sweep_removal_result (· == key) (fun _ => true) false records decodable
      generalize sweep (removal (· == key) fun _ => true) false records = outcome at left result
      obtain ⟨_, final⟩ := outcome
      subst result
      refine ⟨Update.meets_of_accepted (by rw [Update.refusal, valid, refused]) ⟨?_, left⟩,
        (decodable.filter _).perm left⟩
      rw [iterate_found]

private theorem deleteMultiple_meets {records : List RawRecord} (decodable : Decodable records)
    (keys : List Text) :
    (Update.deleteMultiple keys).Meets records ((Update.deleteMultiple keys).onList records).1
        ((Update.deleteMultiple keys).onList records).2 ∧
      Decodable ((Update.deleteMultiple keys).onList records).2 := by
  simp only [Update.onList]
  have checked := collectKeys_eq keys
  cases valid : keys.forM fun key => validateKey key usizeMax with
  | error error =>
      rw [checked, valid]
      exact ⟨Update.meets_of_refused (by rw [Update.refusal, valid, refused]) ⟨rfl, rfl⟩, decodable⟩
  | ok _ =>
      have accepted : (Update.deleteMultiple keys).refusal records = none := by
        rw [Update.refusal, valid, refused]
      obtain ⟨targeted, collected⟩ : ∃ targeted, KvpPoolStore.collectKeys keys = .ok targeted := by
        rw [checked, valid]
        exact ⟨keys.toFinset, rfl⟩
      rw [collected]
      have chosen : (fun record : RawRecord => decide (record.key ∈ targeted)) =
          fun record => decide (record.key ∈ keys) := by
        funext record
        simp only [mem_collectKeys collected]
      dsimp only
      split
      · rename_i none
        have noKeys : ∀ record : RawRecord, record.key ∉ keys := by
          intro record member
          rw [← mem_collectKeys collected, none] at member
          simp at member
        refine ⟨Update.meets_of_accepted accepted ⟨?_, ?_⟩, decodable⟩
        · simp [noKeys]
        · simp [noKeys]
      have left := sweep_removal_perm (· ∈ targeted) (fun count => count + 1) 0 records decodable
      have result := sweep_removal_result (· ∈ targeted) (fun count => count + 1) 0 records decodable
      generalize sweep (removal (· ∈ targeted) fun count => count + 1) 0 records = outcome
        at left result
      obtain ⟨_, final⟩ := outcome
      subst result
      refine ⟨Update.meets_of_accepted accepted ⟨?_, ?_⟩, (decodable.filter _).perm left⟩
      · rw [iterate_count, chosen]
      · simp only [mem_collectKeys collected] at left
        exact left

private theorem insert_meets {records : List RawRecord} (decodable : Decodable records)
    (mode : PoolMode) (key value : Text) :
    (Update.insert mode key value).Meets records
        ((Update.insert mode key value).onList records).1
        ((Update.insert mode key value).onList records).2 ∧
      Decodable ((Update.insert mode key value).onList records).2 := by
  simp only [Update.onList]
  cases accepted : KvpPoolStore.validateRecord mode key value with
  | error error =>
      refine ⟨Update.meets_of_refused ?_ ⟨rfl, rfl⟩, decodable⟩
      rw [Update.refusal, accepted]
      rfl
  | ok _ =>
      have refusal : ∀ before, (Update.insert mode key value).refusal before =
          cappedIf (key ∉ distinctKeys before ∧ maxUniqueKeys ≤ (distinctKeys before).card) := by
        intro before
        rw [Update.refusal, accepted]
        exact Option.none_or
      dsimp only
      cases first : records.find? (·.key == key) with
      | none =>
          have absent : ∀ record ∈ records, record.key ≠ key := by
            simpa using List.find?_eq_none.mp first
          have index : records.findIdx (·.key == key) = records.length :=
            List.findIdx_eq_length_of_false (by simpa using absent)
          have missing : (records.foldl KvpPoolStore.InsertScan.pass noneSeen).found ≠ true := by
            simp [noneSeen]
          have seen : (records.foldl KvpPoolStore.InsertScan.pass noneSeen).uniqueKeys =
              distinctKeys records := by
            rw [KvpPoolStore.InsertScan.uniqueKeys_foldl_pass]
            simp [noneSeen, distinctKeys]
          have isNew : key ∉ distinctKeys records := by
            rw [mem_distinctKeys_iff]
            exact not_exists.mpr fun record stored => absent record stored.1 stored.2
          rw [sweep_insertion_absent key value noneSeen records decodable absent]
          simp only [insertEnd, if_neg missing, seen]
          split
          · rename_i full
            refine ⟨Update.meets_of_refused ?_ ⟨rfl, rfl⟩, decodable⟩
            rw [refusal, cappedIf, if_pos ⟨isNew, full⟩]
          · rename_i room
            refine ⟨Update.meets_of_accepted ?_
              ⟨RawRecord.encode key value, [], ?_, decode_encode_of_validateRecord accepted, ?_⟩,
              decodable.append ?_⟩
            · rw [refusal, cappedIf, if_neg fun full => room full.2]
            · rw [index, List.take_length]
            · rw [index, List.drop_length]
              exact .refl _
            · intro record member
              rw [List.mem_singleton.mp member]
              exact (fields_encode accepted).1
      | some target =>
          obtain ⟨same, front, back, rfl, before⟩ := List.find?_eq_some_iff_append.mp first
          have targetKey : target.key = key := by simpa using same
          have absent : ∀ record ∈ front, record.key ≠ key := by simpa using before
          have index : (front ++ target :: back).findIdx (·.key == key) = front.length := by
            rw [List.findIdx_append, List.findIdx_eq_length_of_false (by simpa using absent),
              if_neg (Nat.lt_irrefl _), List.findIdx_cons, same]
            simp
          obtain ⟨last, rest, passed, found, left⟩ :=
            sweep_insertion_present key value front back target decodable absent targetKey
          have stored : (target.setValue value).decode = .ok (key, value) := by
            have decoded : target.decode = .ok (key, target.value) := by
              rw [← targetKey]
              exact decodable target (by simp)
            obtain ⟨nulFree, fits⟩ := value_of_validateRecord accepted
            exact RawRecord.decode_setValue decoded nulFree fits
          have isThere : key ∈ distinctKeys (front ++ target :: back) :=
            mem_distinctKeys_iff.mpr ⟨target, by simp, targetKey⟩
          simp only [passed, insertEnd, found, if_true]
          refine ⟨Update.meets_of_accepted ?_ ⟨target.setValue value, rest, ?_, stored, ?_⟩, ?_⟩
          · rw [refusal, cappedIf, if_neg fun full => full.1 isThere]
          · rw [index, List.take_left' rfl]
          · rw [index, List.drop_left' rfl, List.filter_cons_of_neg (by simp [targetKey])]
            exact left
          · refine Decodable.append (fun record member => decodable record (by simp [member])) ?_
            rintro record (_ | ⟨_, member⟩)
            · exact (RawRecord.decodable_of_decode stored).1
            · have inBack := (List.mem_filter.mp (left.mem_iff.mp member)).1
              exact decodable record (by simp [inBack])

/-- Every update of decodable records meets its purpose and keeps them decodable. -/
theorem onList_meets {records : List RawRecord} (decodable : Decodable records)
    (update : Update) :
    update.Meets records (update.onList records).1 (update.onList records).2 ∧
      Decodable (update.onList records).2 := by
  cases update with
  | append mode key value =>
      simp only [Update.onList]
      cases accepted : KvpPoolStore.validateRecord mode key value with
      | error error =>
          refine ⟨Update.meets_of_refused ?_ ⟨rfl, rfl⟩, decodable⟩
          rw [Update.refusal, accepted, refused]
      | ok _ =>
          refine ⟨Update.meets_of_accepted (by rw [Update.refusal, accepted, refused]) rfl,
            decodable.append fun record member => ?_⟩
          rw [List.mem_singleton.mp member]
          exact (fields_encode accepted).1
  | appendMultiple mode added =>
      simp only [Update.onList]
      split
      · rename_i empty
        rw [List.isEmpty_iff.mp empty]
        exact ⟨Update.meets_of_accepted rfl (List.append_nil records).symm, decodable⟩
      · cases accepted : validateAll mode added with
        | error error =>
            refine ⟨Update.meets_of_refused ?_ ⟨rfl, rfl⟩, decodable⟩
            rw [Update.refusal, accepted, refused]
        | ok _ =>
            refine ⟨Update.meets_of_accepted (by rw [Update.refusal, accepted, refused]) rfl, ?_⟩
            exact decodable.append (decodable_encodeAll (validateAll_eq_ok_iff.mp accepted))
  | insert mode key value => exact insert_meets decodable mode key value
  | delete key => exact delete_meets decodable key
  | deleteMultiple keys => exact deleteMultiple_meets decodable keys
  | load mode added =>
      simp only [Update.onList]
      rw [uniqueKeysOf_eq]
      cases accepted : validateAll mode added with
      | error error =>
          refine ⟨Update.meets_of_refused ?_ ⟨rfl, rfl⟩, decodable⟩
          rw [Update.refusal, accepted]
          rfl
      | ok _ =>
          have refusal : (Update.load mode added).refusal records =
              cappedIf (maxUniqueKeys < (added.map Prod.fst).toFinset.card) := by
            rw [Update.refusal, accepted]
            exact Option.none_or
          simp only [Except.map]
          split
          · rename_i full
            refine ⟨Update.meets_of_refused ?_ ⟨rfl, rfl⟩, decodable⟩
            rw [refusal, cappedIf, if_pos full]
          · rename_i room
            refine ⟨Update.meets_of_accepted ?_ rfl,
              decodable_encodeAll (validateAll_eq_ok_iff.mp accepted)⟩
            rw [refusal, cappedIf, if_neg room]
  | clear => exact ⟨Update.meets_of_accepted rfl rfl, .nil⟩

/-! ## Reading -/

section Reading

variable {allowed : World → Fault → Prop} {world : World} {records : List RawRecord}

/-- A read from a file of decodable records visits them all, or has met a fault. -/
theorem collect_ensures {β : Type} (bytes : world.bytes = image records)
    (decodable : Decodable records) (visit : β → Text × Text → β) (initial : β) :
    Ensures (HandleStep allowed)
      (unlessMissing KvpPoolStore.iter initial (KvpPoolStore.collect visit initial)) world
      (fun value _ => value = (contents records).foldl visit initial ∨ Faulted allowed)
      (fun _ _ => Faulted allowed) := by
  refine unlessMissing_ensures (KvpPoolStore.iter_ensures bytes) ?_ ?_ ?_
  · rintro error after ⟨-, fault | ⟨-, rfl⟩⟩ -
    · exact .inr fault
    · exact .inl rfl
  · rintro error after ⟨-, fault | ⟨missing, -⟩⟩ present
    · exact fault
    · exact absurd missing present
  intro iter middle between
  refine @closing_ensures allowed middle _ _
    (fun value _ => value = (contents records).foldl visit initial ∨ Faulted allowed)
    (fun _ _ => Faulted allowed) ?_
  refine (scan_ensures (visiting_edits visit) visiting_refuses between initial).bind ?_ ?_
  · rintro error after ⟨io, final, rfl, -, refused | faulted⟩
    · rw [sweep_visiting visit initial records decodable] at refused
      cases refused
    · exact faulted.1
  · rintro outcome after ⟨final, passed, -⟩
    rw [sweep_visiting visit initial records decodable] at passed
    exact ensures_pure_iff.mpr (.inl (Except.ok.inj (Prod.mk.inj passed).1).symm)

theorem execute_of_ensures {α : Type} {program : KvpIo α} {good : α → World → Prop}
    {bad : KvpError → World → Prop}
    (ensured : Ensures (HandleStep noFaults) program world good bad) :
    eitherWay good bad (execute program.run world).1 (execute program.run world).2 :=
  ensured _ _ (runs_execute noFaults program.run world)

private theorem runs_collect {β : Type} {after : World} {result : Except KvpError β}
    (bytes : world.bytes = image records) (decodable : Decodable records)
    (visit : β → Text × Text → β) (initial : β)
    (ran : Program.Runs (HandleStep noFaults)
      (unlessMissing KvpPoolStore.iter initial (KvpPoolStore.collect visit initial)).run world
      result after) :
    result = .ok ((contents records).foldl visit initial) := by
  have ensured := collect_ensures bytes decodable visit initial result after ran
  cases result with
  | ok value => rw [ensured.resolve_right not_faulted_noFaults]
  | error error => exact absurd ensured not_faulted_noFaults

private theorem execute_collect {β : Type} (bytes : world.bytes = image records)
    (decodable : Decodable records) (visit : β → Text × Text → β) (initial : β) :
    (execute (unlessMissing KvpPoolStore.iter initial
      (KvpPoolStore.collect visit initial)).run world).1 =
        .ok ((contents records).foldl visit initial) :=
  runs_collect bytes decodable visit initial (runs_execute noFaults _ world)

private theorem foldl_append_singleton (pairs front : List (Text × Text)) :
    pairs.foldl (fun records record => records ++ [record]) front = front ++ pairs := by
  induction pairs generalizing front with
  | nil => simp
  | cons head tail ih => simp [ih]

/-- `dump` returns the stored records in order. -/
theorem runs_dump {after : World} {result : Except KvpError (List (Text × Text))}
    (wellFormed : world.WellFormed)
    (ran : Program.Runs (HandleStep noFaults) KvpPoolStore.dump.run world result after) :
    result = .ok (contents world.records) := by
  have dumped := runs_collect wellFormed.framed.bytes_eq wellFormed.decodable
    (fun records record => records ++ [record]) [] ran
  rw [foldl_append_singleton] at dumped
  exact dumped

theorem execute_dump (wellFormed : world.WellFormed) :
    (execute KvpPoolStore.dump.run world).1 = .ok (contents world.records) :=
  runs_dump wellFormed (runs_execute noFaults _ world)

private theorem foldl_read (pairs : List (Text × Text)) (key : Text) (found : Option Text) :
    pairs.foldl (fun result pair => if pair.1 = key then some pair.2 else result) found =
      (lastValue pairs key).or found := by
  induction pairs generalizing found with
  | nil => rfl
  | cons head tail ih =>
      rw [List.foldl_cons, ih, lastValue, lastValue, List.filter_cons]
      by_cases same : head.1 = key
      · rw [if_pos same, if_pos (by simpa using same), List.getLast?_cons]
        cases (tail.filter (·.1 == key)).getLast? <;> rfl
      · rw [if_neg same, if_neg (by simpa using same)]

/-- `read` returns the last value stored for a key. -/
theorem execute_read (wellFormed : world.WellFormed) {key : Text}
    (valid : validateKey key usizeMax = .ok ()) :
    (execute (KvpPoolStore.read key).run world).1 =
      .ok (lastValue (contents world.records) key) := by
  have found := execute_collect wellFormed.framed.bytes_eq wellFormed.decodable
    (fun result pair => if pair.1 = key then some pair.2 else result) none
  rw [foldl_read, Option.or_none] at found
  rw [KvpPoolStore.read, valid]
  exact found

private theorem lookup_foldl_insert (pairs : List (Text × Text)) (key : Text) (map : HashMap Text) :
    (pairs.foldl (fun map pair => map.insert pair.1 pair.2) map).lookup key =
      (lastValue pairs key).or (map.lookup key) := by
  induction pairs generalizing map with
  | nil => rfl
  | cons head tail ih =>
      rw [List.foldl_cons, ih, lastValue, lastValue, List.filter_cons]
      by_cases same : head.1 = key
      · subst same
        rw [AList.lookup_insert, if_pos (by simp), List.getLast?_cons]
        cases (tail.filter (·.1 == head.1)).getLast? <;> rfl
      · rw [AList.lookup_insert_ne (Ne.symm same), if_neg (by simpa using same)]

/-- `entries` maps every key to the last value stored for it. -/
theorem execute_entries (wellFormed : world.WellFormed) :
    ∃ map, (execute KvpPoolStore.entries.run world).1 = .ok map ∧
      ∀ key, map.lookup key = lastValue (contents world.records) key := by
  refine ⟨_, execute_collect wellFormed.framed.bytes_eq wellFormed.decodable
    (fun (map : HashMap Text) pair => map.insert pair.1 pair.2) ∅, fun key => ?_⟩
  rw [lookup_foldl_insert]
  simp

end Reading

/-! ## Runs -/

/-- One faultless call: its result and the state behind it. -/
def Update.execute (update : Update) (world : World) :
    Except KvpError UpdateReply × World :=
  Kvp.execute update.perform.run world

/-- The state behind a sequence of faultless calls. -/
def afterUpdates (updates : List Update) (world : World) : World :=
  updates.foldl (fun world update => (update.execute world).2) world

/-- One call on a well-formed pool does what it does on the list of records. -/
theorem update_execute {world : World} (framed : world.Framed) (update : Update) :
    (update.execute world).1 = (update.onList world.records).1 ∧
      (update.execute world).2.bytes = image (update.onList world.records).2 := by
  have performed := execute_of_ensures
    (@update_performs noFaults world world.records framed.bytes_eq update)
  rw [← Update.execute] at performed
  generalize update.execute world = outcome at performed ⊢
  obtain ⟨result, after⟩ := outcome
  cases result with
  | ok reply => exact Or.resolve_right performed fun fault => not_faulted_noFaults fault.1
  | error error => exact Or.resolve_right performed fun fault => not_faulted_noFaults fault.1

theorem update_execute_meets {world : World} (wellFormed : world.WellFormed) (update : Update) :
    update.Meets world.records (update.execute world).1 (update.execute world).2.records ∧
      (update.execute world).2.WellFormed := by
  obtain ⟨result, bytes⟩ := update_execute wellFormed.framed update
  obtain ⟨meets, decodable⟩ := onList_meets wellFormed.decodable update
  have left := World.records_of_image bytes
  rw [result, left]
  exact ⟨meets, World.framed_of_image bytes, by rwa [left]⟩

theorem afterUpdates_wellFormed {world : World} (wellFormed : world.WellFormed)
    (updates : List Update) : (afterUpdates updates world).WellFormed := by
  induction updates generalizing world with
  | nil => exact wellFormed
  | cons update rest ih => exact ih (update_execute_meets wellFormed update).2

theorem afterUpdates_records {world : World} (wellFormed : world.WellFormed)
    (updates : List Update) :
    (afterUpdates updates world).records =
      updates.foldl (fun records update => (update.onList records).2) world.records := by
  induction updates generalizing world with
  | nil => rfl
  | cons update rest ih =>
      have left := World.records_of_image (update_execute wellFormed.framed update).2
      rw [List.foldl_cons, ← left]
      exact ih (update_execute_meets wellFormed update).2

/-- Along every faultless sequence of updates each call returns what it returns on the list of
records, is refused or meets its purpose there, and every state reached reads back what it
stores. -/
theorem updates_refine_list {world : World} (wellFormed : world.WellFormed)
    (earlier : List Update) :
    let reached := afterUpdates earlier world
    (∀ update : Update, (update.execute reached).1 = (update.onList reached.records).1 ∧
      update.Meets reached.records (update.execute reached).1 (update.execute reached).2.records) ∧
    (execute KvpPoolStore.dump.run reached).1 = .ok (contents reached.records) ∧
    (∀ key, validateKey key usizeMax = .ok () →
      (execute (KvpPoolStore.read key).run reached).1 =
        .ok (lastValue (contents reached.records) key)) ∧
    ∃ map, (execute KvpPoolStore.entries.run reached).1 = .ok map ∧
      ∀ key, map.lookup key = lastValue (contents reached.records) key := by
  have reachable := afterUpdates_wellFormed wellFormed earlier
  exact ⟨fun update => ⟨(update_execute reachable.framed update).1,
      (update_execute_meets reachable update).1⟩,
    execute_dump reachable, fun _ valid => execute_read reachable valid, execute_entries reachable⟩

/-- A pool whose file does not exist yet. -/
def missingPool : World := { file := none, now := 0, bootTime := 0 }

theorem missingPool_wellFormed : missingPool.WellFormed := by
  have records : missingPool.records = [] := World.records_of_image rfl
  refine ⟨rfl, ?_⟩
  rw [records]
  exact .nil

/-- Two records of one key are both stored, an insertion puts one in their place, and a
deletion of the empty key is refused. -/
theorem updates_refine_list_missingPool :
    let reached := afterUpdates [.append .safe ['k'] ['v'], .append .safe ['k'] ['w']] missingPool
    (execute KvpPoolStore.dump.run reached).1 = .ok [(['k'], ['v']), (['k'], ['w'])] ∧
    (execute (KvpPoolStore.read ['k']).run reached).1 = .ok (some ['w']) ∧
    ((Update.insert .safe ['k'] ['x']).execute reached).1 = .ok .done ∧
    contents ((Update.insert .safe ['k'] ['x']).execute reached).2.records = [(['k'], ['x'])] ∧
    ((Update.delete []).execute reached).1 = .error .emptyKey := by
  obtain ⟨calls, dumped, found, -⟩ := updates_refine_list missingPool_wellFormed
    [.append .safe ['k'] ['v'], .append .safe ['k'] ['w']]
  have stored := afterUpdates_records missingPool_wellFormed
    [.append .safe ['k'] ['v'], .append .safe ['k'] ['w']]
  have empty : missingPool.records = [] := World.records_of_image rfl
  rw [empty] at stored
  generalize afterUpdates [.append .safe ['k'] ['v'], .append .safe ['k'] ['w']] missingPool =
    reached at calls dumped found stored ⊢
  have two : reached.records = [RawRecord.encode ['k'] ['v'], RawRecord.encode ['k'] ['w']] :=
    stored
  obtain ⟨-, firstKey, firstValue⟩ := @fields_encode .safe ['k'] ['v'] (by decide)
  obtain ⟨-, secondKey, secondValue⟩ := @fields_encode .safe ['k'] ['w'] (by decide)
  have pairs : contents reached.records = [(['k'], ['v']), (['k'], ['w'])] := by
    rw [two, contents, List.map_cons, List.map_cons, firstKey, firstValue, secondKey, secondValue]
    rfl
  have accepted : (Update.insert .safe ['k'] ['x']).refusal reached.records = none := by
    rw [two, Update.refusal, distinctKeys, List.map_cons, List.map_cons, firstKey, secondKey]
    rfl
  obtain ⟨returned, inserted⟩ := calls (.insert .safe ['k'] ['x'])
  unfold Update.Meets at inserted
  rw [accepted] at inserted
  obtain ⟨reply, -, record, rest, left, decoded, others⟩ := inserted
  have first : reached.records.findIdx (·.key == ['k']) = 0 := by
    rw [two, List.findIdx_cons, firstKey]
    rfl
  have gone : rest = [] := by
    rw [first, List.drop_zero, two, List.filter_cons_of_neg (by simp [firstKey]),
      List.filter_cons_of_neg (by simp [secondKey])] at others
    exact others.eq_nil
  obtain ⟨-, key, value⟩ := RawRecord.decodable_of_decode decoded
  refine ⟨by rw [dumped, pairs], ?_, ?_, ?_, ?_⟩
  · rw [found ['k'] (by decide), pairs]
    rfl
  · rw [returned, two]
    decide +kernel
  · rw [left, first, gone, List.take_zero, List.nil_append, contents, List.map_singleton, key, value]
  · rw [(calls (.delete [])).1]
    rfl

end AzureInit.Kvp
