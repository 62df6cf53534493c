import AzureInit.Kvp.UniqueKeys

/-! The one record of a key. What an insertion leaves, and an append to a pool without
the key. -/

set_option autoImplicit false

namespace AzureInit.Kvp

open Foundation
open Blocks (image)

/-- The one record of a key among records that are otherwise those from before. -/
structure Replaced (key value : Text) (before after : List RawRecord) : Prop where
  stored : ∃ record, after.filter (·.key == key) = [record] ∧ record.decode = .ok (key, value)
  others : (after.filter fun record => !(record.key == key)).Perm
    (before.filter fun record => !(record.key == key))

section OnList

variable {records : List RawRecord} {mode : PoolMode} {key value : Text}

/-- An insertion that is carried out leaves one record of its key. -/
theorem replaced_of_achieves {reply : UpdateReply} {after : List RawRecord}
    (achieved : (Update.insert mode key value).Achieves records reply after) :
    Replaced key value records after := by
  obtain ⟨record, rest, rfl, decoded, others⟩ := achieved
  have recordKey : record.key = key := (RawRecord.decodable_of_decode decoded).2.1
  have front : ∀ other ∈ records.take (records.findIdx (·.key == key)),
      (other.key == key) = false := fun _ => List.false_of_mem_take_findIdx
  have behind : ∀ other ∈ rest, (other.key == key) = false := by
    intro other member
    simpa using (List.mem_filter.mp (others.mem_iff.mp member)).2
  constructor
  · refine ⟨record, ?_, decoded⟩
    rw [List.filter_append, List.filter_cons_of_pos (by simp [recordKey]),
      List.filter_eq_nil_iff.mpr (by simpa using front),
      List.filter_eq_nil_iff.mpr (by simpa using behind), List.nil_append]
  · have split := List.take_append_drop (records.findIdx (·.key == key)) records
    conv_rhs => rw [← split]
    rw [List.filter_append, List.filter_append, List.filter_cons_of_neg (by simp [recordKey])]
    apply List.Perm.append_left
    rw [List.filter_eq_self.mpr (by simpa using behind)]
    exact others

/-- A record appended to a pool without its key is the only one of it. -/
theorem replaced_of_append (valid : KvpPoolStore.validateRecord mode key value = .ok ())
    (absent : key ∉ distinctKeys records) :
    Replaced key value records (records ++ [RawRecord.encode key value]) := by
  have others : ∀ record ∈ records, (record.key == key) = false := by
    intro record member
    rw [beq_eq_false_iff_ne]
    exact fun same => absent (mem_distinctKeys_iff.mpr ⟨record, member, same⟩)
  have stored := fields_encode valid
  constructor
  · refine ⟨RawRecord.encode key value, ?_, decode_encode_of_validateRecord valid⟩
    rw [List.filter_append, List.filter_eq_nil_iff.mpr (by simpa using others)]
    simp [stored.2.1]
  · rw [List.filter_append]
    simp [stored.2.1]

end OnList

/-- An insertion that returns successfully has accepted its record. -/
theorem validateRecord_of_insert {mode : PoolMode} {key value : Text} {world after : World}
    (returned : Program.Runs (HandleStep noFaults) (KvpPoolStore.insert mode key value).run world
      (.ok ()) after) :
    KvpPoolStore.validateRecord mode key value = .ok () := by
  unfold KvpPoolStore.insert at returned
  obtain ⟨⟨⟩, middle, valid, -⟩ := Program.runs_except_bind_ok_iff.mp returned
  exact (Program.runs_pure_iff.mp valid).1.symm

/-- There is room for a valid record of a key while the pool has fewer keys than the cap. -/
theorem insert_returns {mode : PoolMode} {key value : Text} {world after : World}
    {result : Except KvpError Unit} (wellFormed : world.WellFormed)
    (valid : KvpPoolStore.validateRecord mode key value = .ok ())
    (room : (distinctKeys world.records).card < maxUniqueKeys)
    (returned : Program.Runs (HandleStep noFaults) (KvpPoolStore.insert mode key value).run world
      result after) :
    result = .ok () := by
  cases result with
  | ok _ => rfl
  | error error =>
      have insertion := @insert_performs noFaults world world.records wellFormed.framed.bytes_eq
        mode key value
      obtain ⟨replied, -⟩ := Or.resolve_right (insertion.error returned)
        fun fault => not_faulted_noFaults fault.1
      rw [insert_result wellFormed.decodable valid, if_neg fun full => by omega] at replied
      cases replied

/-- What an insertion that returns successfully leaves. -/
theorem insert_replaces {mode : PoolMode} {key value : Text} {world after : World}
    (wellFormed : world.WellFormed)
    (returned : Program.Runs (HandleStep noFaults) (KvpPoolStore.insert mode key value).run world
      (.ok ()) after) :
    after.WellFormed ∧ Replaced key value world.records after.records := by
  have insertion := @insert_performs noFaults world world.records wellFormed.framed.bytes_eq mode
    key value
  have meets := onList_meets wellFormed.decodable (.insert mode key value)
  obtain ⟨replied, bytes⟩ := Or.resolve_right (insertion.value returned)
    fun fault => not_faulted_noFaults fault.1
  have records := World.records_of_image bytes
  rw [← replied, ← records] at meets
  have achieved : (Update.insert mode key value).Achieves world.records .done after.records :=
    meets.1.achieved
  exact ⟨⟨World.framed_of_image bytes, meets.2⟩, replaced_of_achieves achieved⟩

end AzureInit.Kvp
