import AzureInit.Diagnostics.Report
import AzureInit.Foundation.BytePieces
import AzureInit.Kvp.Replacement

/-! The agent's report in the pool. Each report that the agent stores takes the place
of the one before it, however full the pool is. -/

set_option autoImplicit false

namespace AzureInit.Agent

open Foundation
open Blocks (image)
open Kvp
open Diagnostics (provisioningReportKey)

/-- The longest front of a report that fits into one value. -/
def cutReport (mode : PoolMode) (report : Text) : Text :=
  let reportEnd := Utf8.floorCharBoundary report
    (min (Utf8.byteLength report) mode.maxValueSize)
  ((Utf8.splitAt? report reportEnd).getD (report, [])).1

def writeProvisioningReport (mode : PoolMode) (report : Text) : KvpIo Unit :=
  let report := cutReport mode report
  ExceptT.mk do
    match ← (KvpPoolStore.insert mode provisioningReportKey report).run with
    | .error (.maxUniqueKeysExceeded _) =>
        (KvpPoolStore.append mode provisioningReportKey report).run
    | result => return result

theorem cutReport_eq (mode : PoolMode) (report : Text) :
    cutReport mode report = Utf8.takeBytes mode.maxValueSize report := by
  rw [cutReport, Utf8.splitAt?_floorCharBoundary]
  rfl

/-! ## One report -/

theorem validateRecord_cutReport {mode : PoolMode} {report : Text} (nulFree : '\x00' ∉ report) :
    KvpPoolStore.validateRecord mode provisioningReportKey (cutReport mode report) = .ok () := by
  rw [validateRecord_eq_ok_iff, validateValue_eq_ok_iff, cutReport_eq]
  have front := Utf8.longestFront_takeBytes mode.maxValueSize report
  refine ⟨?_, fun member => nulFree (front.isFront.subset member), front.fits⟩
  cases mode with
  | safe => decide
  | unsafe_ => decide

/-- One report, in a pool in any state. -/
theorem writeProvisioningReport_replaces {mode : PoolMode} {report : Text} {world after : World}
    {result : Except KvpError Unit} (wellFormed : world.WellFormed) (nulFree : '\x00' ∉ report)
    (returned : Program.Runs (HandleStep noFaults) (writeProvisioningReport mode report).run world
      result after) :
    result = .ok () ∧ after.WellFormed ∧
      Replaced provisioningReportKey (cutReport mode report) world.records after.records := by
  have valid := @validateRecord_cutReport mode report nulFree
  obtain ⟨inserted, middle, ran, rest⟩ := Program.runs_bind_iff.mp returned
  have insertion := @insert_performs noFaults world world.records wellFormed.framed.bytes_eq mode
    provisioningReportKey (cutReport mode report)
  have meets := onList_meets wellFormed.decodable
    (.insert mode provisioningReportKey (cutReport mode report))
  cases inserted with
  | ok _ =>
      obtain ⟨rfl, rfl⟩ := Program.runs_pure_iff.mp rest
      exact ⟨rfl, insert_replaces wellFormed ran⟩
  | error error =>
      obtain ⟨replied, bytes⟩ := Or.resolve_right (insertion.error ran)
        fun fault => not_faulted_noFaults fault.1
      rw [← replied] at meets
      have untouched : (Update.onList (.insert mode provisioningReportKey (cutReport mode report))
        world.records).2 = world.records := meets.1.unchanged
      rw [untouched] at bytes
      rw [insert_result wellFormed.decodable valid] at replied
      split at replied
      · rename_i full
        obtain rfl := Except.error.inj replied
        have appending := @append_performs noFaults middle world.records bytes mode
          provisioningReportKey (cutReport mode report)
        have appended : ∀ outcome, Update.Outcome noFaults
            (.append mode provisioningReportKey (cutReport mode report)) world.records outcome
              after.bytes →
            outcome = .ok .done ∧ after.bytes = image (world.records ++
              [RawRecord.encode provisioningReportKey (cutReport mode report)]) := by
          intro outcome reached
          obtain ⟨told, left⟩ := Or.resolve_right reached fun fault => not_faulted_noFaults fault.1
          simp only [Update.onList, valid] at told left
          exact ⟨told, left⟩
        cases result with
        | error error => cases (appended _ (appending.error rest)).1
        | ok _ =>
            obtain ⟨-, left⟩ := appended _ (appending.value rest)
            have records := World.records_of_image left
            refine ⟨rfl, ⟨World.framed_of_image left, ?_⟩, ?_⟩
            · rw [records]
              apply wellFormed.decodable.append
              intro record member
              rw [List.mem_singleton.mp member]
              exact (fields_encode valid).1
            · rw [records]
              exact replaced_of_append valid full.1
      · cases replied

/-! ## Any number of reports -/

/-- Reports stored one after the other, each with what the call has returned. -/
inductive ReportRun (mode : PoolMode) : List (Text × Except KvpError Unit) → World → World → Prop where
  | nil {world : World} : ReportRun mode [] world world
  | cons {report : Text} {result : Except KvpError Unit} {rest : List (Text × Except KvpError Unit)}
      {before middle after : World} :
      Program.Runs (HandleStep noFaults) (writeProvisioningReport mode report).run before result
        middle → ReportRun mode rest middle after →
      ReportRun mode ((report, result) :: rest) before after

/-- Every report of a run is stored, and takes the place of all before it; the other
records stay. -/
theorem reports_replace_each_other {mode : PoolMode} {world after : World}
    {earlier : List (Text × Except KvpError Unit)} {report : Text} {result : Except KvpError Unit}
    (wellFormed : world.WellFormed)
    (nulFree : ∀ call ∈ earlier ++ [(report, result)], '\x00' ∉ call.1)
    (run : ReportRun mode (earlier ++ [(report, result)]) world after) :
    (∀ call ∈ earlier ++ [(report, result)], call.2 = .ok ()) ∧
    (∃ record value, after.records.filter (·.key == provisioningReportKey) = [record] ∧
      record.decode = .ok (provisioningReportKey, value) ∧
      Utf8.LongestFront mode.maxValueSize report value) ∧
    (after.records.filter fun record => !(record.key == provisioningReportKey)).Perm
      (world.records.filter fun record => !(record.key == provisioningReportKey)) := by
  induction earlier generalizing world with
  | nil =>
      cases run with
      | cons returned rest =>
          cases rest
          obtain ⟨rfl, -, replaced⟩ := writeProvisioningReport_replaces wellFormed
            (nulFree _ (List.mem_singleton.mpr rfl)) returned
          obtain ⟨record, alone, decoded⟩ := replaced.stored
          refine ⟨by simp, ⟨record, _, alone, decoded, ?_⟩, replaced.others⟩
          rw [cutReport_eq]
          exact Utf8.longestFront_takeBytes _ _
  | cons call earlier ih =>
      rw [List.cons_append] at run nulFree ⊢
      cases run with
      | cons returned rest =>
          rw [List.forall_mem_cons] at nulFree
          obtain ⟨stored, still, replaced⟩ :=
            writeProvisioningReport_replaces wellFormed nulFree.1 returned
          obtain ⟨results, last, others⟩ := ih still nulFree.2 rest
          exact ⟨List.forall_mem_cons.mpr ⟨stored, results⟩, last, others.trans replaced.others⟩

/-- More distinct keys than the cap allows, and two reports. -/
def crowdedRecords : List (Text × Text) :=
  numberedRecords maxUniqueKeys ++ [(provisioningReportKey, ['x']), (provisioningReportKey, ['y'])]

theorem crowdedRecords_valid : ∀ pair ∈ crowdedRecords,
    KvpPoolStore.validateRecord .safe pair.1 pair.2 = .ok () := by
  refine List.forall_mem_append.mpr ⟨numberedRecords_valid, ?_⟩
  exact List.forall_mem_cons.mpr ⟨by decide, List.forall_mem_singleton.mpr (by decide)⟩

theorem crowdedRecords_others :
    ((storedPool crowdedRecords).records.filter fun record =>
      !(record.key == provisioningReportKey)) = encodeAll (numberedRecords maxUniqueKeys) := by
  have split : encodeAll crowdedRecords = encodeAll (numberedRecords maxUniqueKeys) ++
      [RawRecord.encode provisioningReportKey ['x'], RawRecord.encode provisioningReportKey ['y']] :=
    List.map_append
  rw [storedPool_records, split, List.filter_append, List.filter_eq_self.mpr,
    List.filter_eq_nil_iff.mpr, List.append_nil]
  · have report : ∀ value, KvpPoolStore.validateRecord .safe provisioningReportKey value = .ok () →
        ¬ (!((RawRecord.encode provisioningReportKey value).key == provisioningReportKey)) = true := by
      intro value valid
      rw [(fields_encode valid).2.1]
      decide
    exact List.forall_mem_cons.mpr
      ⟨report ['x'] (by decide), List.forall_mem_singleton.mpr (report ['y'] (by decide))⟩
  · intro record member
    obtain ⟨pair, inNumbered, rfl⟩ := List.mem_map.mp member
    obtain ⟨number, -, rfl⟩ := List.mem_map.mp inNumbered
    have key := (fields_encode (numberedRecords_valid _ inNumbered)).2.1
    dsimp only at key ⊢
    rw [key, Bool.not_eq_true', beq_eq_false_iff_ne]
    intro same
    have isLetter : 'P' ∈ Decimal.digits number := by
      rw [same]
      exact List.mem_cons_self
    exact Decimal.not_mem_digits rfl isLetter

theorem longestFront_replicate {limit count : Nat} {c : Char} {front : Text}
    (ascii : c.toNat < 128) (longer : limit ≤ count)
    (isLongest : Utf8.LongestFront limit (List.replicate count c) front) :
    front = List.replicate limit c := by
  have width : ∀ count, Utf8.byteLength (List.replicate count c) = count := by
    intro count
    rw [Utf8.byteLength_of_ascii fun other member => by rwa [List.eq_of_mem_replicate member],
      List.length_replicate]
  obtain ⟨-, same⟩ := List.prefix_replicate_iff.mp isLongest.isFront
  have fits := isLongest.fits
  rw [same, width] at fits
  have cut : List.replicate limit c <+: List.replicate count c :=
    List.prefix_replicate_iff.mpr ⟨by simpa using longer, by simp⟩
  have most := (isLongest.longest _ cut (width limit).le).length_le
  rw [List.length_replicate] at most
  rw [same, Nat.le_antisymm fits most]

theorem exists_reportRun (report later : Text) (world : World) :
    ∃ result again after,
      ReportRun .safe ([(report, result)] ++ [(later, again)]) world after := by
  have first := runs_execute noFaults (writeProvisioningReport .safe report).run world
  generalize execute (writeProvisioningReport .safe report).run world = middle at first
  have second := runs_execute noFaults (writeProvisioningReport .safe later).run middle.2
  generalize execute (writeProvisioningReport .safe later).run middle.2 = last at second
  exact ⟨middle.1, last.1, last.2, .cons first (.cons second .nil)⟩

/-- A short report and one that is cut, in a pool that holds two reports beside more keys than
the cap allows. -/
theorem reports_replace_each_other_twice :
    ∃ result again after, ReportRun .safe [(['b'], result), (List.replicate 1100 'a', again)]
        (storedPool crowdedRecords) after ∧
      result = .ok () ∧ again = .ok () ∧
      (∃ record, after.records.filter (·.key == provisioningReportKey) = [record] ∧
        record.decode = .ok (provisioningReportKey, List.replicate 1022 'a')) ∧
      (after.records.filter fun record => !(record.key == provisioningReportKey)).Perm
        (encodeAll (numberedRecords maxUniqueKeys)) := by
  obtain ⟨result, again, after, run⟩ := exists_reportRun ['b'] (List.replicate 1100 'a')
    (storedPool crowdedRecords)
  have nulFree : ∀ call ∈ [(['b'], result)] ++ [(List.replicate 1100 'a', again)],
      '\x00' ∉ call.1 := by
    refine List.forall_mem_cons.mpr ⟨?_, List.forall_mem_singleton.mpr ?_⟩
    · exact fun member => absurd (List.mem_singleton.mp member) (by decide)
    · exact fun member => absurd (List.eq_of_mem_replicate member) (by decide)
  obtain ⟨results, ⟨record, value, alone, decoded, longest⟩, others⟩ :=
    reports_replace_each_other (storedPool_wellFormed crowdedRecords_valid) nulFree run
  rw [longestFront_replicate (by decide) (by decide) longest] at decoded
  rw [crowdedRecords_others] at others
  exact ⟨result, again, after, run, results _ List.mem_cons_self,
    results _ (List.mem_cons_of_mem _ (List.mem_singleton_self _)), ⟨record, alone, decoded⟩, others⟩

end AzureInit.Agent
