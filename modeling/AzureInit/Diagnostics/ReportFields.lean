import AzureInit.Foundation.FallibleState
import AzureInit.Diagnostics.ReportEncoding

/-! What a list of fields says as a report. The fields may stand in any order. -/

set_option autoImplicit false

namespace AzureInit.Diagnostics

open Foundation
open Foundation.Fallible

/-! ## Taking fields -/

def valuesOf (name : Text) (fields : List (Text × Text)) : List Text :=
  (fields.filter (·.1 == name)).map (·.2)

def without (name : Text) (fields : List (Text × Text)) : List (Text × Text) :=
  fields.filter (·.1 != name)

theorem valuesOf_append (name : Text) (left right : List (Text × Text)) :
    valuesOf name (left ++ right) = valuesOf name left ++ valuesOf name right := by
  simp [valuesOf]

theorem valuesOf_without {name other : Text} (different : name ≠ other)
    (fields : List (Text × Text)) : valuesOf name (without other fields) = valuesOf name fields := by
  unfold valuesOf without
  rw [List.filter_filter]
  congr 1
  apply List.filter_congr
  intro field _
  grind

theorem valuesOf_eq_nil_iff {name : Text} {fields : List (Text × Text)} :
    valuesOf name fields = [] ↔ ∀ field ∈ fields, field.1 ≠ name := by
  simp [valuesOf]

/-- Taking one name after the other away. -/
theorem foldl_without (names : List Text) (fields : List (Text × Text)) :
    names.foldl (fun left name => without name left) fields =
      fields.filter fun field => !names.contains field.1 := by
  induction names generalizing fields with
  | nil => simp
  | cons name names ih =>
      rw [List.foldl_cons, ih, without, List.filter_filter]
      apply List.filter_congr
      intro field _
      grind

theorem eraseIdx_findIdx_eq_without {name : Text} {fields : List (Text × Text)}
    {field : Text × Text} (only : fields.filter (·.1 == name) = [field]) :
    fields.eraseIdx (fields.findIdx (·.1 == name)) = without name fields := by
  induction fields with
  | nil => cases only
  | cons first fields ih =>
      by_cases named : first.1 = name
      · rw [List.filter_cons_of_pos (by simpa using named)] at only
        have others := List.filter_eq_nil_iff.mp (List.cons.inj only).2
        rw [List.findIdx_cons, beq_iff_eq.mpr named, cond_true, List.eraseIdx_cons_zero, without,
          List.filter_cons_of_neg (by simpa using named), List.filter_eq_self.mpr]
        intro other member
        simpa using others other member
      · rw [List.filter_cons_of_neg (by simpa using named)] at only
        rw [List.findIdx_cons, beq_false_of_ne named, cond_false, List.eraseIdx_cons_succ, ih only,
          without, without, List.filter_cons_of_pos (by simpa using named)]

theorem takeField_eq_ok_iff {name : Text} {fields rest : List (Text × Text)}
    {taken : Option Text} :
    (takeField name).run fields = .ok (taken, rest) ↔
      valuesOf name fields = taken.toList ∧ rest = without name fields := by
  unfold valuesOf
  cases found : fields.filter (·.1 == name) with
  | nil =>
      have run : (takeField name).run fields = .ok (none, fields) := by
        unfold takeField
        simp only [StateT.run_bind, StateT.run_get, pure_bind, found]
        rfl
      have untouched : without name fields = fields := by
        rw [without, List.filter_eq_self]
        simpa using found
      rw [run, untouched]
      cases taken <;> simp [eq_comm]
  | cons first others =>
      cases others with
      | nil =>
          have run : (takeField name).run fields =
              .ok (some first.2, fields.eraseIdx (fields.findIdx (·.1 == name))) := by
            unfold takeField
            simp only [StateT.run_bind, StateT.run_get, pure_bind, found]
            rfl
          rw [run, eraseIdx_findIdx_eq_without found]
          cases taken <;> simp [eq_comm]
      | cons second others =>
          have run : (takeField name).run fields = .error .malformed := by
            unfold takeField
            simp only [StateT.run_bind, StateT.run_get, pure_bind, found]
            rfl
          rw [run]
          cases taken <;> simp

theorem takeRequired_eq_ok_iff {name value : Text} {fields rest : List (Text × Text)} :
    (takeRequired name).run fields = .ok (value, rest) ↔
      valuesOf name fields = [value] ∧ rest = without name fields := by
  have run : (takeRequired name).run fields = (takeField name).run fields >>= fun taken =>
      (okOr taken.1 DecodeError.malformed).map (·, taken.2) := by
    unfold takeRequired
    rw [StateT.run_bind]
    congr 1
  rw [run]
  cases taken : (takeField name).run fields with
  | error error =>
      have refused : ¬ (valuesOf name fields = [value] ∧ rest = without name fields) := by
        intro found
        have accepted := (@takeField_eq_ok_iff name fields rest (some value)).mpr found
        rw [taken] at accepted
        cases accepted
      simp [refused, bind, Except.bind]
  | ok pair =>
      obtain ⟨option, left⟩ := pair
      obtain ⟨values, rfl⟩ := takeField_eq_ok_iff.mp taken
      rw [values]
      cases option <;> simp [okOr, bind, Except.bind, Except.map, eq_comm]

/-! ## Whole reports -/

theorem ReportPpsType.fromWire_eq_ok_iff {value : Text} {ppsType : ReportPpsType} :
    ReportPpsType.fromWire value = .ok ppsType ↔ value = ppsType.asStr := by
  constructor
  · intro parsed
    unfold ReportPpsType.fromWire at parsed
    split_ifs at parsed with isNone isOsDisk isRunning isSavable isUnknown
    · cases parsed
      exact beq_iff_eq.mp isNone
    · cases parsed
      exact beq_iff_eq.mp isOsDisk
    · cases parsed
      exact beq_iff_eq.mp isRunning
    · cases parsed
      exact beq_iff_eq.mp isSavable
    · cases parsed
      exact beq_iff_eq.mp isUnknown
  · intro printed
    rw [printed]
    cases ppsType <;> rfl

/-- The names that a report of a result takes for itself. -/
def standardNames : ReportResult → List Text
  | .success =>
      ["result".toList, "agent".toList, "vm_id".toList, "timestamp".toList, "pps_type".toList]
  | .error =>
      ["result".toList, "agent".toList, "vm_id".toList, "timestamp".toList, "pps_type".toList,
        "reason".toList, "documentation_url".toList]

/-- What the fields beyond those of every report say. -/
def DescribesFailure (fields : List (Text × Text)) (report : ProvisioningReport) : Prop :=
  match report.result with
  | .success => report.reason = none ∧ report.documentationUrl = none
  | .error => report.reason.isSome ∧ valuesOf "reason".toList fields = report.reason.toList ∧
      valuesOf "documentation_url".toList fields = report.documentationUrl.toList

/-- Fields that say the report, each standard field once. -/
structure Describes (fields : List (Text × Text)) (report : ProvisioningReport) : Prop where
  result : valuesOf "result".toList fields = [report.result.asStr]
  agent : valuesOf "agent".toList fields = [report.agent]
  vmId : valuesOf "vm_id".toList fields = [report.vmId]
  timestamp : valuesOf "timestamp".toList fields = [report.timestamp]
  ppsType : valuesOf "pps_type".toList fields = [report.ppsType.asStr]
  failure : DescribesFailure fields report
  extra : report.extra = fields.filter fun field => !(standardNames report.result).contains field.1

/-- The fields behind the result. -/
private def takeBehindResult (crates : Crates) (result : ReportResult) :
    StateT (List (Text × Text)) (Except DecodeError) ProvisioningReport := do
  let agent ← takeRequired "agent".toList
  let vmId ← takeRequired "vm_id".toList
  let timestamp ← takeRequired "timestamp".toList
  let _ ← okOr (crates.parseFromRfc3339 timestamp) DecodeError.malformed
  let ppsType ← ReportPpsType.fromWire (← takeRequired "pps_type".toList)
  let (reason, documentationUrl) ←
    match result with
    | .success => pure (none, none)
    | .error => do
        let reason ← takeRequired "reason".toList
        let documentationUrl ← takeField "documentation_url".toList
        pure (some reason, documentationUrl)
  let extra ← get
  return { result, agent, vmId, timestamp, ppsType, reason, documentationUrl, extra }

theorem takeBehindResult_eq_ok_iff {crates : Crates} {fields rest : List (Text × Text)}
    {result : ReportResult} {report : ProvisioningReport}
    (told : valuesOf "result".toList fields = [result.asStr]) :
    (takeBehindResult crates result).run (without "result".toList fields) = .ok (report, rest) ↔
      report.result = result ∧ Describes fields report ∧
        (crates.parseFromRfc3339 report.timestamp).isSome ∧ rest = report.extra := by
  cases result with
  | success =>
      have taken := foldl_without (standardNames .success) fields
      simp only [standardNames, List.foldl_cons, List.foldl_nil] at taken
      simp (disch := decide) only [takeBehindResult, run_bind_eq_ok_iff, takeRequired_eq_ok_iff,
        run_lift_eq_ok_iff, run_pure_eq_ok_iff, run_get_eq_ok_iff, okOr_eq_ok_iff,
        ReportPpsType.fromWire_eq_ok_iff, and_assoc, exists_and_left, exists_eq_left,
        valuesOf_without, taken]
      constructor
      · intro read
        obtain ⟨agent, agents, vmId, vmIds, timestamp, timestamps, instant, parsed, token,
          tokens, ppsType, rfl, rfl, rfl⟩ := read
        exact ⟨rfl, ⟨told, agents, vmIds, timestamps, tokens, ⟨rfl, rfl⟩, rfl⟩,
          Option.isSome_of_eq_some parsed, rfl⟩
      · intro described
        obtain ⟨same, describes, valid, rfl⟩ := described
        obtain ⟨instant, parsed⟩ := Option.isSome_iff_exists.mp valid
        obtain ⟨result, agent, vmId, timestamp, ppsType, reason, documentationUrl, extra⟩ := report
        obtain rfl : result = .success := same
        obtain ⟨rfl, rfl⟩ : reason = none ∧ documentationUrl = none := describes.failure
        obtain rfl : extra = fields.filter fun field =>
          !(standardNames .success).contains field.1 := describes.extra
        exact ⟨agent, describes.agent, vmId, describes.vmId, timestamp, describes.timestamp,
          instant, parsed, ppsType.asStr, describes.ppsType, ppsType, rfl, rfl, rfl⟩
  | error =>
      have taken := foldl_without (standardNames .error) fields
      simp only [standardNames, List.foldl_cons, List.foldl_nil] at taken
      simp (disch := decide) only [takeBehindResult, run_bind_eq_ok_iff, takeRequired_eq_ok_iff,
        takeField_eq_ok_iff, run_lift_eq_ok_iff, run_pure_eq_ok_iff, run_get_eq_ok_iff,
        okOr_eq_ok_iff, ReportPpsType.fromWire_eq_ok_iff, and_assoc, exists_and_left,
        exists_eq_left, valuesOf_without, taken]
      constructor
      · intro read
        obtain ⟨agent, agents, vmId, vmIds, timestamp, timestamps, instant, parsed, token,
          tokens, ppsType, rfl, reason, reasons, url, urls, rfl, rfl⟩ := read
        exact ⟨rfl, ⟨told, agents, vmIds, timestamps, tokens, ⟨rfl, reasons, urls⟩, rfl⟩,
          Option.isSome_of_eq_some parsed, rfl⟩
      · intro described
        obtain ⟨same, describes, valid, rfl⟩ := described
        obtain ⟨instant, parsed⟩ := Option.isSome_iff_exists.mp valid
        obtain ⟨result, agent, vmId, timestamp, ppsType, reason, documentationUrl, extra⟩ := report
        obtain rfl : result = .error := same
        obtain ⟨hasReason, reasons, urls⟩ : reason.isSome ∧
          valuesOf "reason".toList fields = reason.toList ∧
          valuesOf "documentation_url".toList fields = documentationUrl.toList := describes.failure
        obtain ⟨cause, rfl⟩ := Option.isSome_iff_exists.mp hasReason
        obtain rfl : extra = fields.filter fun field =>
          !(standardNames .error).contains field.1 := describes.extra
        exact ⟨agent, describes.agent, vmId, describes.vmId, timestamp, describes.timestamp,
          instant, parsed, ppsType.asStr, describes.ppsType, ppsType, rfl, cause, reasons,
          documentationUrl, urls, rfl, rfl⟩

/-- A report is taken from exactly the lists of fields that describe it. -/
theorem takeReport_eq_ok_iff {crates : Crates} {fields rest : List (Text × Text)}
    {report : ProvisioningReport} :
    (takeReport crates).run fields = .ok (report, rest) ↔
      Describes fields report ∧ (crates.parseFromRfc3339 report.timestamp).isSome ∧
        rest = report.extra := by
  have steps : takeReport crates = (do
      let resultToken ← takeRequired "result".toList
      if resultToken == "success".toList then takeBehindResult crates .success
      else if resultToken == "error".toList then takeBehindResult crates .error
      else throw DecodeError.malformed) := by
    unfold takeReport
    congr 1
  rw [steps]
  simp only [run_bind_eq_ok_iff, takeRequired_eq_ok_iff]
  constructor
  · intro read
    obtain ⟨token, fields', ⟨told, rfl⟩, read⟩ := read
    split at read
    · rename_i isSuccess
      rw [beq_iff_eq.mp isSuccess] at told
      exact ((@takeBehindResult_eq_ok_iff crates _ _ .success _ told).mp read).2
    · split at read
      · rename_i isError
        rw [beq_iff_eq.mp isError] at told
        exact ((@takeBehindResult_eq_ok_iff crates _ _ .error _ told).mp read).2
      · cases read
  · intro described
    refine ⟨report.result.asStr, _, ⟨described.1.result, rfl⟩, ?_⟩
    have read := (takeBehindResult_eq_ok_iff described.1.result).mpr ⟨rfl, described⟩
    cases result : report.result with
    | success =>
        rw [result] at read
        exact read
    | error =>
        rw [result] at read
        exact read

/-! ## Stored texts -/

/-- A field name that is found again in front of the first `=`. -/
def IsFieldName (name : Text) : Prop := name ≠ [] ∧ '=' ∉ name

theorem splitReportField_eq_ok_iff {text : Text} {field : Text × Text} :
    splitReportField text = .ok field ↔ text = fieldText field ∧ IsFieldName field.1 := by
  unfold splitReportField fieldText IsFieldName
  rw [bind_eq_ok_iff]
  simp only [okOr_eq_ok_iff, Prod.exists, Delimited.splitOnce?_eq_some_iff]
  constructor
  · intro split
    obtain ⟨key, value, ⟨rfl, absent⟩, built⟩ := split
    split_ifs at built with isEmpty
    cases built
    exact ⟨rfl, by simpa using isEmpty, absent⟩
  · intro built
    obtain ⟨rfl, given, absent⟩ := built
    refine ⟨field.1, field.2, ⟨rfl, absent⟩, ?_⟩
    rw [if_neg (by simpa using given)]
    rfl

theorem mapM_splitReportField_eq_ok_iff {record : List Text} {fields : List (Text × Text)} :
    record.mapM splitReportField = .ok fields ↔
      record = fields.map fieldText ∧ ∀ field ∈ fields, IsFieldName field.1 := by
  rw [mapM_eq_ok_iff]
  simp only [splitReportField_eq_ok_iff]
  constructor
  · intro split
    induction split with
    | nil => simp
    | cons first _ ih =>
        obtain ⟨rfl, named⟩ := first
        obtain ⟨rfl, others⟩ := ih
        exact ⟨rfl, List.forall_mem_cons.mpr ⟨named, others⟩⟩
  · intro built
    obtain ⟨rfl, named⟩ := built
    induction fields with
    | nil => exact .nil
    | cons field fields ih =>
        obtain ⟨first, others⟩ := List.forall_mem_cons.mp named
        exact .cons ⟨rfl, first⟩ (ih others)

/-- A stored text is a report when it is quoted well and its fields describe one. -/
theorem fromStr_eq_ok_iff {crates : Crates} {value : Text} {report : ProvisioningReport} :
    ProvisioningReport.fromStr crates value = .ok report ↔
      validateReportQuoting (stripLineEnd value) = .ok () ∧
      ∃ fields, crates.csvFirstRecord (stripLineEnd value) = some (some (fields.map fieldText)) ∧
        (∀ field ∈ fields, IsFieldName field.1) ∧ Describes fields report ∧
        (crates.parseFromRfc3339 report.timestamp).isSome := by
  unfold ProvisioningReport.fromStr
  simp only [bind_eq_ok_iff, okOr_eq_ok_iff, mapM_splitReportField_eq_ok_iff]
  constructor
  · intro parsed
    obtain ⟨⟨⟩, quoting, first, read, record, given, fields, ⟨rfl, named⟩, ⟨taken, rest⟩, took,
      built⟩ := parsed
    obtain rfl := given
    cases built
    obtain ⟨describes, valid, -⟩ := takeReport_eq_ok_iff.mp took
    exact ⟨quoting, fields, read, named, describes, valid⟩
  · intro stored
    obtain ⟨quoting, fields, read, named, describes, valid⟩ := stored
    exact ⟨(), quoting, _, read, _, rfl, fields, ⟨rfl, named⟩, _,
      takeReport_eq_ok_iff.mpr ⟨describes, valid, rfl⟩, rfl⟩

end AzureInit.Diagnostics
