import AzureInit.Kvp.ListModel

/-! Passes over lists of decodable records: what they return and what they leave. -/

set_option autoImplicit false

namespace AzureInit.Kvp

open Foundation
open Sweep (Edit closeGap sweep)
open KvpPoolStore (InsertScan)

namespace RawRecord

/-- The decoded key; a record that does not decode has none. -/
def key (record : RawRecord) : Text :=
  match record.decode with
  | .ok (key, _) => key
  | .error _ => []

def value (record : RawRecord) : Text :=
  match record.decode with
  | .ok (_, value) => value
  | .error _ => []

/-- Both fields hold valid UTF-8. -/
def Decodable (record : RawRecord) : Prop := record.decode = .ok (record.key, record.value)

theorem decodable_of_decode {record : RawRecord} {key value : Text}
    (decoded : record.decode = .ok (key, value)) :
    record.Decodable ∧ record.key = key ∧ record.value = value := by
  simp only [Decodable, RawRecord.key, RawRecord.value, decoded, and_self]

theorem not_decodable_iff {record : RawRecord} :
    ¬ record.Decodable ↔ ∃ error, record.decode = .error error := by
  cases decoded : record.decode with
  | error error => simp [Decodable, decoded]
  | ok decodedPair =>
      have decodable : record.Decodable := (decodable_of_decode decoded).1
      simp [decodable]

end RawRecord

/-- Every record holds valid UTF-8. -/
def Decodable (records : List RawRecord) : Prop := ∀ record ∈ records, record.Decodable

/-- The key/value pairs of a list of records, in order. -/
def contents (records : List RawRecord) : List (Text × Text) :=
  records.map fun record => (record.key, record.value)

theorem Decodable.nil : Decodable [] := fun _ member => absurd member List.not_mem_nil

theorem Decodable.cons {head : RawRecord} {tail : List RawRecord}
    (decodable : Decodable (head :: tail)) : head.Decodable ∧ Decodable tail :=
  ⟨decodable head (by simp), fun record member => decodable record (by simp [member])⟩

theorem Decodable.perm {before after : List RawRecord} (decodable : Decodable before)
    (same : after.Perm before) : Decodable after :=
  fun record member => decodable record (same.mem_iff.mp member)

theorem Decodable.remaining {tail : List RawRecord} (decodable : Decodable tail)
    (edit : Edit RawRecord) : Decodable (edit.remaining tail) :=
  decodable.perm (edit.remaining_perm tail)

/-! ## Steps on decodable records -/

section Steps

variable {record : RawRecord} (decodable : record.Decodable)
include decodable

theorem removal_of_decodable {β : Type} (targeted : Text → Bool) (note : β → β) (noted : β) :
    removal targeted note noted record =
      .ok (if targeted record.key then (.remove, note noted) else (.keep, noted)) := by
  rw [removal, decodable]

theorem insertion_of_decodable (key value : Text) (scan : InsertScan) :
    insertion key value scan record =
      .ok (if record.key = key then
          if scan.found then
            (.remove, { scan with uniqueKeys := insert record.key scan.uniqueKeys })
          else (.replace (record.setValue value),
            { found := true, uniqueKeys := insert record.key scan.uniqueKeys })
        else (.keep, { scan with uniqueKeys := insert record.key scan.uniqueKeys })) := by
  rw [insertion, decodable]

theorem visiting_of_decodable {β : Type} (visit : β → Text × Text → β) (state : β) :
    visiting visit state record = .ok (.keep, visit state (record.key, record.value)) := by
  rw [visiting, decodable]

end Steps

/-! ## Steps on any record, from what they did -/

theorem removal_keep {β : Type} {targeted : Text → Bool} {note : β → β} (noted : β)
    (record : RawRecord) (edit : Edit RawRecord) (next : β)
    (stepped : removal targeted note noted record = .ok (edit, next))
    (spared : (!targeted record.key) = true) : edit = .keep := by
  by_cases decodable : record.Decodable
  · rw [removal_of_decodable decodable, if_neg (by simpa using spared)] at stepped
    exact (Prod.mk.inj (Except.ok.inj stepped)).1.symm
  · obtain ⟨error, undecodable⟩ := RawRecord.not_decodable_iff.mp decodable
    simp only [removal, undecodable] at stepped
    cases stepped

theorem removal_no_replace {β : Type} {targeted : Text → Bool} {note : β → β} (noted : β)
    (record value : RawRecord) (next : β)
    (stepped : removal targeted note noted record = .ok (.replace value, next)) : False := by
  simp only [removal] at stepped
  split at stepped
  · cases stepped
  · split at stepped <;> simp at stepped

theorem insertion_keep {key value : Text} (scan : InsertScan) (record : RawRecord)
    (edit : Edit RawRecord) (next : InsertScan)
    (stepped : insertion key value scan record = .ok (edit, next))
    (other : record.key ≠ key) : edit = .keep := by
  by_cases decodable : record.Decodable
  · rw [insertion_of_decodable decodable, if_neg other] at stepped
    exact (Prod.mk.inj (Except.ok.inj stepped)).1.symm
  · obtain ⟨error, undecodable⟩ := RawRecord.not_decodable_iff.mp decodable
    simp only [insertion, undecodable] at stepped
    cases stepped

/-! ## Deletion -/

section Removal

variable {β : Type} (targeted : Text → Bool) (note : β → β)

/-- A deletion's pass takes note of every targeted record. -/
theorem sweep_removal_result (noted : β) (records : List RawRecord)
    (decodable : Decodable records) :
    (sweep (removal targeted note) noted records).1 =
      .ok (note^[records.countP fun record => targeted record.key] noted) := by
  induction noted, records using Sweep.sweep_induction (removal targeted note) with
  | ended noted => simp
  | refused noted head tail error refused =>
      rw [removal_of_decodable decodable.cons.1] at refused
      cases refused
  | continued noted head tail edit next accepted ih =>
      have rest := ih (decodable.cons.2.remaining edit)
      rw [(edit.remaining_perm tail).countP_eq] at rest
      rw [Sweep.sweep_cons_ok accepted, rest]
      rw [removal_of_decodable decodable.cons.1] at accepted
      split at accepted
      · rename_i target
        obtain ⟨rfl, rfl⟩ := Prod.mk.inj (Except.ok.inj accepted)
        rw [List.countP_cons, if_pos target, Function.iterate_succ_apply]
      · rename_i other
        obtain ⟨rfl, rfl⟩ := Prod.mk.inj (Except.ok.inj accepted)
        rw [List.countP_cons, if_neg other, Nat.add_zero]

/-- A deletion leaves exactly the records it does not target. -/
theorem sweep_removal_perm (noted : β) (records : List RawRecord)
    (decodable : Decodable records) :
    (sweep (removal targeted note) noted records).2.Perm
      (records.filter fun record => !targeted record.key) := by
  induction noted, records using Sweep.sweep_induction (removal targeted note) with
  | ended noted => simp
  | refused noted head tail error refused =>
      rw [removal_of_decodable decodable.cons.1] at refused
      cases refused
  | continued noted head tail edit next accepted ih =>
      have rest := (ih (decodable.cons.2.remaining edit)).trans
        ((edit.remaining_perm tail).filter _)
      rw [Sweep.sweep_cons_ok accepted]
      rw [removal_of_decodable decodable.cons.1] at accepted
      split at accepted
      · rename_i target
        obtain ⟨rfl, rfl⟩ := Prod.mk.inj (Except.ok.inj accepted)
        rw [List.filter_cons_of_neg (by simp [target])]
        exact rest
      · rename_i other
        obtain ⟨rfl, rfl⟩ := Prod.mk.inj (Except.ok.inj accepted)
        rw [List.filter_cons_of_pos (by simp [other])]
        exact rest.cons head

end Removal

/-! ## Insertion -/

namespace KvpPoolStore.InsertScan

/-- The records an insertion passes by only add to the keys it has seen. -/
def pass (scan : InsertScan) (record : RawRecord) : InsertScan :=
  { scan with uniqueKeys := Insert.insert record.key scan.uniqueKeys }

@[simp] theorem found_foldl_pass (scan : InsertScan) (records : List RawRecord) :
    (records.foldl pass scan).found = scan.found := by
  induction records generalizing scan with
  | nil => rfl
  | cons head tail ih =>
      rw [List.foldl_cons, ih]
      rfl

theorem uniqueKeys_foldl_pass (scan : InsertScan) (records : List RawRecord) :
    (records.foldl pass scan).uniqueKeys =
      scan.uniqueKeys ∪ (records.map RawRecord.key).toFinset := by
  induction records generalizing scan with
  | nil => simp
  | cons head tail ih =>
      rw [List.foldl_cons, ih]
      ext key
      simp [pass, or_left_comm]

end KvpPoolStore.InsertScan

theorem insertion_pass {key : Text} (value : Text) {records : List RawRecord}
    (decodable : Decodable records) (absent : ∀ record ∈ records, record.key ≠ key) :
    ∀ record ∈ records, ∀ scan,
      insertion key value scan record = .ok (.keep, scan.pass record) := by
  intro record member scan
  rw [insertion_of_decodable (decodable record member), if_neg (absent record member)]
  rfl

/-- Without the key, an insertion's pass only collects the distinct keys. -/
theorem sweep_insertion_absent (key value : Text) (scan : InsertScan) (records : List RawRecord)
    (decodable : Decodable records) (absent : ∀ record ∈ records, record.key ≠ key) :
    sweep (insertion key value) scan records =
      (.ok (records.foldl InsertScan.pass scan), records) := by
  have passed := Sweep.sweep_append_of_keep records [] scan (insertion_pass value decodable absent)
  simpa using passed

/-- Once the key has been found, an insertion's pass removes its other records. -/
theorem sweep_insertion_found (key value : Text) (scan : InsertScan) (records : List RawRecord)
    (decodable : Decodable records) (found : scan.found = true) :
    (∃ last, (sweep (insertion key value) scan records).1 = .ok last ∧ last.found = true) ∧
      (sweep (insertion key value) scan records).2.Perm
        (records.filter fun record => !(record.key == key)) := by
  induction scan, records using Sweep.sweep_induction (insertion key value) with
  | ended scan => exact ⟨⟨scan, by simp, found⟩, by simp⟩
  | refused scan head tail error refused =>
      rw [insertion_of_decodable decodable.cons.1] at refused
      cases refused
  | continued scan head tail edit next accepted ih =>
      have rest := ih (decodable.cons.2.remaining edit)
      rw [Sweep.sweep_cons_ok accepted]
      rw [insertion_of_decodable decodable.cons.1] at accepted
      split at accepted
      · rename_i same
        obtain ⟨rfl, rfl⟩ := Prod.mk.inj (Except.ok.inj accepted)
        obtain ⟨result, left⟩ := rest found
        rw [List.filter_cons_of_neg (by simp [same])]
        exact ⟨result, left.trans ((Sweep.closeGap_perm tail).filter _)⟩
      · rename_i other
        obtain ⟨rfl, rfl⟩ := Prod.mk.inj (Except.ok.inj accepted)
        obtain ⟨result, left⟩ := rest found
        rw [List.filter_cons_of_pos (by simp [other])]
        exact ⟨result, left.cons head⟩

/-- The first record of the key takes the new value in its place, and the later
ones are removed. -/
theorem sweep_insertion_present (key value : Text) (front back : List RawRecord)
    (target : RawRecord) (decodable : Decodable (front ++ target :: back))
    (absent : ∀ record ∈ front, record.key ≠ key) (present : target.key = key) :
    ∃ last rest, sweep (insertion key value) noneSeen (front ++ target :: back) =
        (.ok last, front ++ target.setValue value :: rest) ∧ last.found = true ∧
      rest.Perm (back.filter fun record => !(record.key == key)) := by
  have frontDecodable : Decodable front := fun record member => decodable record (by simp [member])
  have targetDecodable : target.Decodable := decodable target (by simp)
  have backDecodable : Decodable back := fun record member => decodable record (by simp [member])
  have passed := Sweep.sweep_append_of_keep front (target :: back) noneSeen
    (insertion_pass value frontDecodable absent)
  have stepped := insertion_of_decodable targetDecodable key value (front.foldl InsertScan.pass noneSeen)
  rw [if_pos present, InsertScan.found_foldl_pass, if_neg (by simp [noneSeen])] at stepped
  rw [passed, Sweep.sweep_cons_ok stepped]
  obtain ⟨⟨last, result, lastFound⟩, left⟩ := sweep_insertion_found key value
    { found := true, uniqueKeys := insert target.key (front.foldl InsertScan.pass noneSeen).uniqueKeys }
    back backDecodable rfl
  exact ⟨last, _, by rw [Edit.remaining_replace, result]; rfl, lastFound, left⟩

/-! ## Reading -/

/-- A reading pass changes nothing and visits the decoded records in order. -/
theorem sweep_visiting {β : Type} (visit : β → Text × Text → β) (state : β)
    (records : List RawRecord) (decodable : Decodable records) :
    sweep (visiting visit) state records = (.ok ((contents records).foldl visit state), records) := by
  induction records generalizing state with
  | nil => simp [contents]
  | cons head tail ih =>
      rw [Sweep.sweep_cons_ok (visiting_of_decodable decodable.cons.1 visit state),
        Edit.remaining_keep, ih _ decodable.cons.2]
      rfl

end AzureInit.Kvp
