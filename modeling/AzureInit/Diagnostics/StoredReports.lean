import AzureInit.Kvp.ListRefinement
import AzureInit.Diagnostics.ReaderProperties

/-! The reader's entries for the report key. They come from the records of the key alone,
whatever else the pool holds. -/

set_option autoImplicit false

namespace AzureInit.Diagnostics

open Foundation
open Kvp (World RawRecord HandleStep noFaults contents)

/-- The entries for the report key. -/
def Entry.isForReport : Entry → Bool
  | .report _ => true
  | .raw kept => kept.key == provisioningReportKey
  | .diagnostic _ => false

/-- The entry of a stored report. -/
def reportEntry (crates : Crates) (value : Text) : Entry :=
  match ProvisioningReport.fromStr crates value with
  | .ok report => .report report
  | .error error => .raw { key := provisioningReportKey, value, error := some error }

theorem placeRecord_report (crates : Crates) (value : Text) :
    placeRecord crates (provisioningReportKey, value) = .entry (reportEntry crates value) := by
  have first : Delimited.firstField '|' provisioningReportKey = provisioningReportKey := by decide
  have notDiagnostic : (provisioningReportKey == diagnosticVersionId) = false := by decide
  have notCloudInit : (provisioningReportKey == CloudInit.keyPrefix) = false := by decide
  unfold placeRecord reportEntry
  simp only [first, notDiagnostic, notCloudInit, Bool.false_eq_true, ↓reduceIte, beq_self_eq_true,
    Bool.and_self]
  cases ProvisioningReport.fromStr crates value <;> rfl

theorem isForReport_of_placeParsed {crates : Crates} {raw : RawKeyValue}
    {parsed : Except DecodeError (Text × Option UInt64)} {entry : Entry}
    (placed : placeParsed crates raw parsed = .entry entry)
    (other : raw.key ≠ provisioningReportKey) : entry.isForReport = false := by
  unfold placeParsed at placed
  split at placed
  · cases placed
  · split at placed <;> cases placed
    · rfl
    · simpa [Entry.isForReport, RawKeyValue.withError] using other
  · cases placed
    simpa [Entry.isForReport, RawKeyValue.withError] using other

theorem isForReport_of_placeRecord {crates : Crates} {record : Text × Text} {entry : Entry}
    (placed : placeRecord crates record = .entry entry)
    (other : record.1 ≠ provisioningReportKey) : entry.isForReport = false := by
  unfold placeRecord at placed
  dsimp only at placed
  split at placed
  · exact isForReport_of_placeParsed placed other
  · split at placed
    · exact isForReport_of_placeParsed placed other
    · split at placed
      · rename_i isReport
        rw [Bool.and_eq_true, beq_iff_eq, beq_iff_eq] at isReport
        exact absurd isReport.2 other
      · split at placed
        · exact isForReport_of_placeParsed placed other
        · cases placed
          simpa [Entry.isForReport] using other

/-- What one record contributes to the entries for the report key. -/
theorem filter_contribution (crates : Crates) (numbered : List Numbered) (record : Numbered) :
    ((contribution crates numbered record).map (·.2)).filter Entry.isForReport =
      if record.1.1 = provisioningReportKey then [reportEntry crates record.1.2] else [] := by
  split
  · rename_i isReport
    have placed : placeRecord crates record.1 = .entry (reportEntry crates record.1.2) := by
      rw [← placeRecord_report, ← isReport]
    have shown : (reportEntry crates record.1.2).isForReport = true := by
      unfold reportEntry
      split
      · rfl
      · exact beq_self_eq_true _
    unfold contribution
    rw [placed]
    simp [shown]
  · rename_i other
    rw [List.filter_eq_nil_iff]
    intro entry member
    rw [Bool.not_eq_true]
    unfold contribution at member
    split at member
    · rename_i own placed
      obtain rfl := List.mem_singleton.mp member
      exact isForReport_of_placeRecord placed other
    · split at member
      · split at member
        · obtain rfl := List.mem_singleton.mp member
          rfl
        · cases member
      · obtain rfl := List.mem_singleton.mp member
        simpa [Entry.isForReport, Numbered.raw, RawKeyValue.withError] using other

/-- Each record of the report key stands for one entry, in order. -/
theorem filter_decodeEntries (crates : Crates) (order : HashOrder) (records : List (Text × Text)) :
    (decodeEntries crates order records).filter Entry.isForReport =
      (records.filter (·.1 == provisioningReportKey)).map fun record =>
        reportEntry crates record.2 := by
  have part : ∀ numbered : List Numbered,
      ((numbered.flatMap (contribution crates records.zipIdx)).map (·.2)).filter
          Entry.isForReport =
        ((numbered.map (·.1)).filter (·.1 == provisioningReportKey)).map fun record =>
          reportEntry crates record.2 := by
    intro numbered
    induction numbered with
    | nil => rfl
    | cons record numbered ih =>
        rw [List.flatMap_cons, List.map_append, List.filter_append, filter_contribution, ih,
          List.map_cons]
        split
        · rename_i isReport
          rw [List.filter_cons_of_pos (by simpa using isReport)]
          rfl
        · rename_i other
          rw [List.filter_cons_of_neg (by simpa using other)]
          rfl
  rw [decodeEntries_eq, part, List.zipIdx_map_fst]

/-! ## In the pool -/

theorem contents_filter {records : List RawRecord} {key value : Text} {record : RawRecord}
    (alone : records.filter (·.key == key) = [record])
    (decoded : record.decode = .ok (key, value)) :
    (contents records).filter (·.1 == key) = [(key, value)] := by
  have sameFilter : (contents records).filter (·.1 == key) =
      contents (records.filter (·.key == key)) := by
    unfold contents
    rw [List.filter_map]
    rfl
  obtain ⟨-, sameKey, sameValue⟩ := RawRecord.decodable_of_decode decoded
  rw [sameFilter, alone, contents, List.map_singleton, sameKey, sameValue]

/-- Reading a well-formed pool returns the decoded entries of its records. -/
theorem runs_entries {crates : Crates} {order : HashOrder} {world after : World}
    {result : Except Kvp.KvpError (List Entry)} (wellFormed : world.WellFormed)
    (read : Program.Runs (HandleStep noFaults) (DiagnosticReader.entries crates order).run world
      result after) :
    result = .ok (decodeEntries crates order (contents world.records)) := by
  rcases Program.runs_except_bind_iff.mp read with returned | failed
  · obtain ⟨records, middle, dumped, rest⟩ := returned
    obtain ⟨rfl, -⟩ := Program.runs_pure_iff.mp rest
    cases Kvp.runs_dump wellFormed dumped
    rfl
  · obtain ⟨error, dumped, -⟩ := failed
    cases Kvp.runs_dump wellFormed dumped

/-- The one record of the report key is the one entry for it. -/
theorem reportEntries_of_stored {crates : Crates} {order : HashOrder} {world after : World}
    {result : Except Kvp.KvpError (List Entry)} {value : Text} {record : RawRecord}
    (wellFormed : world.WellFormed)
    (alone : world.records.filter (·.key == provisioningReportKey) = [record])
    (decoded : record.decode = .ok (provisioningReportKey, value))
    (read : Program.Runs (HandleStep noFaults) (DiagnosticReader.entries crates order).run world
      result after) :
    ∃ entries, result = .ok entries ∧
      entries.filter Entry.isForReport = [reportEntry crates value] := by
  refine ⟨_, runs_entries wellFormed read, ?_⟩
  rw [filter_decodeEntries, contents_filter alone decoded, List.map_singleton]

theorem reportEntry_eq_report_iff {crates : Crates} {value : Text} {report : ProvisioningReport} :
    reportEntry crates value = .report report ↔
      ProvisioningReport.fromStr crates value = .ok report := by
  unfold reportEntry
  cases ProvisioningReport.fromStr crates value <;> simp

end AzureInit.Diagnostics
