import AzureInit.Cli.TextDump
import AzureInit.Diagnostics.RecordOrder
import AzureInit.Diagnostics.StoredReports
import AzureInit.Kvp.Replacement

/-! Pools in which records are added, replaced and removed. A removal fills its gap from the
end of the pool; the reader reads what it would without that. -/

set_option autoImplicit false

namespace AzureInit.Cli

open Foundation
open Diagnostics (Crates Entry HashOrder decodeEntries)
open Kvp (RawRecord Update UpdateReply World KvpError contents)

/-! ## Records without their order -/

/-- What an update that succeeds makes of the records. -/
def onBag (update : Update) (bag : List (Text × Text)) : List (Text × Text) :=
  match update with
  | .append _ key value => bag ++ [(key, value)]
  | .appendMultiple _ added => bag ++ added
  | .insert _ key value => (bag.filter fun record => !(record.1 == key)) ++ [(key, value)]
  | .delete key => bag.filter fun record => !(record.1 == key)
  | .deleteMultiple keys => bag.filter fun record => !keys.contains record.1
  | .load _ added => added
  | .clear => []

def bagBehind (update : Update) (result : Except KvpError UpdateReply)
    (bag : List (Text × Text)) : List (Text × Text) :=
  match result with
  | .ok _ => onBag update bag
  | .error _ => bag

/-- The records behind a sequence of calls, of which those that fail change nothing. -/
def bagAfter : List Update → World → List (Text × Text) → List (Text × Text)
  | [], _, bag => bag
  | update :: rest, world, bag =>
      bagAfter rest (update.execute world).2 (bagBehind update (update.execute world).1 bag)

theorem bagBehind_perm {update : Update} {result : Except KvpError UpdateReply}
    {bag other : List (Text × Text)} (perm : bag.Perm other) :
    (bagBehind update result bag).Perm (bagBehind update result other) := by
  cases result with
  | error error => exact perm
  | ok reply =>
      cases update with
      | append | appendMultiple => exact perm.append_right _
      | insert => exact (perm.filter _).append_right _
      | delete | deleteMultiple => exact perm.filter _
      | load | clear => exact .refl _

theorem bagAfter_perm {updates : List Update} {world : World} {bag other : List (Text × Text)}
    (perm : bag.Perm other) : (bagAfter updates world bag).Perm (bagAfter updates world other) := by
  induction updates generalizing world bag other with
  | nil => exact perm
  | cons update rest ih => exact ih (bagBehind_perm perm)

/-! ## Updates of the pool -/

theorem contents_filter_key (records : List RawRecord) (isKept : Text → Bool) :
    contents (records.filter fun record => isKept record.key) =
      (contents records).filter fun record => isKept record.1 :=
  (List.filter_map (p := fun record : Text × Text => isKept record.1)).symm

/-- The one record of a key stands for all that were there. -/
theorem contents_of_replaced {before after : List RawRecord} {key value : Text}
    (replaced : Kvp.Replaced key value before after) :
    (contents after).Perm
      (((contents before).filter fun record => !(record.1 == key)) ++ [(key, value)]) := by
  obtain ⟨record, alone, decoded⟩ := replaced.stored
  have others := replaced.others.map fun record => (record.key, record.value)
  have split : (contents after).Perm
      (((contents after).filter fun record => !(record.1 == key)) ++
        (contents after).filter (·.1 == key)) :=
    (List.filter_append_perm (·.1 == key) _).symm.trans List.perm_append_comm
  refine split.trans ?_
  rw [Diagnostics.contents_filter alone decoded,
    ← contents_filter_key after fun stored => !(stored == key),
    ← contents_filter_key before fun stored => !(stored == key)]
  exact List.Perm.append_right _ others

/-- An update that succeeds does what it does on the bag. -/
theorem contents_onList {records : List RawRecord} (decodable : Kvp.Decodable records)
    {update : Update} {reply : UpdateReply} (succeeds : (update.onList records).1 = .ok reply) :
    (contents (update.onList records).2).Perm (onBag update (contents records)) := by
  have meets := (Kvp.onList_meets decodable update).1
  rw [succeeds] at meets
  have achieved : update.Achieves records reply (update.onList records).2 := meets.achieved
  cases update with
  | append mode key value =>
      simp only [Update.onList] at succeeds ⊢
      cases valid : Kvp.KvpPoolStore.validateRecord mode key value with
      | error error =>
          rw [valid] at succeeds
          cases succeeds
      | ok done =>
          dsimp only
          have stored : ∀ record ∈ [(key, value)],
              Kvp.KvpPoolStore.validateRecord mode record.1 record.2 = .ok () := by
            intro record member
            rw [List.mem_singleton.mp member]
            exact valid
          rw [contents_append]
          exact .of_eq (congrArg _ (contents_encodeAll stored))
  | appendMultiple mode added =>
      simp only [Update.onList] at succeeds ⊢
      split
      · rename_i empty
        rw [onBag, List.isEmpty_iff.mp empty, List.append_nil]
      · rename_i given
        rw [if_neg given] at succeeds
        cases valid : Kvp.validateAll mode added with
        | error error =>
            rw [valid] at succeeds
            cases succeeds
        | ok done =>
            dsimp only
            rw [contents_append, contents_encodeAll (Kvp.validateAll_eq_ok_iff.mp valid)]
            exact .refl _
  | insert mode key value => exact contents_of_replaced (Kvp.replaced_of_achieves achieved)
  | delete key =>
      rw [onBag, ← contents_filter_key records fun stored => !(stored == key)]
      exact achieved.2.map _
  | deleteMultiple keys =>
      have kept := achieved.2.map fun record => (record.key, record.value)
      simp only [← List.contains_eq_mem] at kept
      rw [onBag, ← contents_filter_key records fun stored => !keys.contains stored]
      exact kept
  | load mode added =>
      simp only [Update.onList] at succeeds ⊢
      cases valid : Kvp.KvpPoolStore.uniqueKeysOf mode added with
      | error error =>
          rw [valid] at succeeds
          cases succeeds
      | ok uniqueKeys =>
          rw [valid] at succeeds
          dsimp only at succeeds ⊢
          split
          · rename_i many
            rw [if_pos many] at succeeds
            cases succeeds
          · exact .of_eq (contents_encodeAll (Kvp.validate_of_uniqueKeysOf valid).1)
  | clear => exact .refl _

theorem contents_execute {world : World} (wellFormed : world.WellFormed) (update : Update) :
    (contents (update.execute world).2.records).Perm
      (bagBehind update (update.execute world).1 (contents world.records)) := by
  obtain ⟨result, bytes⟩ := Kvp.update_execute wellFormed.framed update
  rw [Kvp.World.records_of_image bytes, result]
  cases succeeds : (update.onList world.records).1 with
  | ok reply => exact contents_onList wellFormed.decodable succeeds
  | error error =>
      have meets := (Kvp.onList_meets wellFormed.decodable update).1
      rw [succeeds] at meets
      have same : (update.onList world.records).2 = world.records := meets.unchanged
      rw [same]
      exact .refl _

theorem contents_afterUpdates {world : World} (wellFormed : world.WellFormed)
    (updates : List Update) :
    (contents (Kvp.afterUpdates updates world).records).Perm
      (bagAfter updates world (contents world.records)) := by
  induction updates generalizing world with
  | nil => exact .refl _
  | cons update rest ih =>
      exact (ih (Kvp.update_execute_meets wellFormed update).2).trans
        (bagAfter_perm (contents_execute wellFormed update))

/-- Along every sequence of calls, the reader reads of the pool what it reads of the records
without their order. -/
theorem entries_of_edited_pool {crates : Crates} {world : World} (wellFormed : world.WellFormed)
    (updates : List Update) (order otherOrder : HashOrder) :
    ∃ entries : List Entry,
      (Kvp.execute (Diagnostics.DiagnosticReader.entries crates order).run
        (Kvp.afterUpdates updates world)).1 = .ok entries ∧
      entries.Perm (decodeEntries crates otherOrder
        (bagAfter updates world (contents world.records))) := by
  have reached := Kvp.afterUpdates_wellFormed wellFormed updates
  have ran := Kvp.runs_execute Kvp.noFaults (Diagnostics.DiagnosticReader.entries crates order).run
    (Kvp.afterUpdates updates world)
  exact ⟨_, Diagnostics.runs_entries reached ran,
    Diagnostics.decodeEntries_perm (contents_afterUpdates wellFormed updates) order otherOrder⟩

/-! ## A diagnostic behind a record that is deleted -/

/-- The order of the hash map in which its entries were inserted. -/
def storedOrder : HashOrder := ⟨id, List.Perm.refl⟩

def sampleUpdates : List Update :=
  [.append .safe "HostName".toList "node".toList, .appendMultiple .safe Diagnostics.startRecords,
    .delete "HostName".toList, .insert .safe "HostName".toList "other".toList]

theorem entries_of_edited_pool_sample :
    ∃ entries : List Entry,
      (Kvp.execute (Diagnostics.DiagnosticReader.entries
        Diagnostics.ReferenceCrates.reference storedOrder).run
          (Kvp.afterUpdates sampleUpdates Kvp.missingPool)).1 = .ok entries ∧
      entries.Perm (decodeEntries Diagnostics.ReferenceCrates.reference storedOrder
        (bagAfter sampleUpdates Kvp.missingPool (contents Kvp.missingPool.records))) :=
  entries_of_edited_pool Kvp.missingPool_wellFormed sampleUpdates storedOrder storedOrder

end AzureInit.Cli
