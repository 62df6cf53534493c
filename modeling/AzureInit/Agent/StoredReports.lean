import AzureInit.Diagnostics.CutReports
import AzureInit.Diagnostics.StoredReports
import AzureInit.Agent.EncodedReports
import AzureInit.Agent.ReportReplacement

/-! The agent's reports as the reader finds them in the pool. A report that does not fit into
one value is cut, and stays decodable when the cut spares its standard fields. -/

set_option autoImplicit false

namespace AzureInit.Agent

open Foundation
open Kvp
open Diagnostics

/-- The reports that the agent encodes. -/
inductive AgentReport where
  | failure (error : Error) (order : MapOrder)
  | success (optionalKeyValue : Option (Text × Text))

namespace AgentReport

def encoded (csvWriteRecord : CsvWriteRecord) (nowRfc3339 vmId : Text) : AgentReport → Text
  | .failure error order => error.asEncodedReport csvWriteRecord order nowRfc3339 vmId
  | .success optionalKeyValue =>
      encodedSuccessReport csvWriteRecord nowRfc3339 vmId optionalKeyValue

def result : AgentReport → ReportResult
  | .failure .. => .error
  | .success _ => .success

def NulFree : AgentReport → Prop
  | .failure error _ => error.NulFree
  | .success optionalKeyValue =>
      ∀ pair ∈ optionalKeyValue, '\x00' ∉ pair.1 ∧ '\x00' ∉ pair.2

/-- The report up to its timestamp. -/
def base (nowRfc3339 vmId : Text) : AgentReport → ProvisioningReport
  | .failure error order =>
      { error.report order nowRfc3339 vmId with documentationUrl := none }
  | .success _ => successReport nowRfc3339 vmId none

/-- The field behind the timestamp. -/
def lastField : AgentReport → Option (Text × Text)
  | .failure .. => some ("documentation_url".toList, Error.documentationUrl)
  | .success optionalKeyValue => optionalKeyValue

variable {crates : Crates} {csvWriteRecord : CsvWriteRecord} {nowRfc3339 vmId : Text}

theorem fields_split (report : AgentReport) :
    ∃ whole : ProvisioningReport, report.encoded csvWriteRecord nowRfc3339 vmId =
        whole.encode csvWriteRecord ∧
      whole.fields = (report.base nowRfc3339 vmId).fields ++ report.lastField.toList := by
  cases report with
  | failure error order =>
      refine ⟨error.report order nowRfc3339 vmId, Error.asEncodedReport_eq .., ?_⟩
      simp [ProvisioningReport.fields, Error.report, base, lastField]
  | success optionalKeyValue =>
      refine ⟨successReport nowRfc3339 vmId optionalKeyValue, encodedSuccessReport_eq .., ?_⟩
      cases optionalKeyValue <;> rfl

theorem encoded_eq_line (csv : crates.Csv csvWriteRecord) (report : AgentReport) :
    report.encoded csvWriteRecord nowRfc3339 vmId =
      Csv.line '|' (((report.base nowRfc3339 vmId).fields ++ report.lastField.toList).map
        fieldText) := by
  obtain ⟨whole, encoding, fields⟩ := @fields_split csvWriteRecord nowRfc3339 vmId report
  rw [encoding, ProvisioningReport.encode_eq_line csv, fields]

theorem encodable_base (report : AgentReport) : (report.base nowRfc3339 vmId).Encodable := by
  cases report with
  | failure error order =>
      have whole := Error.encodable_report order nowRfc3339 error vmId
      exact ⟨whole.extraNames, .inr ⟨rfl, rfl⟩⟩
  | success optionalKeyValue => exact encodable_successReport (by simp)

theorem endsInTimestamp_base (report : AgentReport) :
    EndsInTimestamp (report.base nowRfc3339 vmId) := by
  cases report with
  | failure error order =>
      refine ⟨("result".toList, ReportResult.error.asStr) ::
        ([("reason".toList, error.reason)] ++ [("agent".toList, agentName)] ++
          (error.report order nowRfc3339 vmId).extra ++
          [("pps_type".toList, ReportPpsType.none.asStr), ("vm_id".toList, vmId)]), ?_⟩
      simp [ProvisioningReport.fields, base, Error.report]
  | success optionalKeyValue =>
      exact ⟨[("result".toList, ReportResult.success.asStr), ("agent".toList, agentName),
        ("pps_type".toList, ReportPpsType.none.asStr), ("vm_id".toList, vmId)], rfl⟩

theorem nulFree_base {report : AgentReport} (reportText : report.NulFree)
    (identity : '\x00' ∉ vmId) (time : '\x00' ∉ nowRfc3339) :
    (report.base nowRfc3339 vmId).NulFree := by
  cases report with
  | failure error order =>
      have whole := @Error.nulFree_report order nowRfc3339 error vmId reportText identity time
      intro text member
      apply whole
      simp only [base, ProvisioningReport.texts, Option.toList_none, List.append_nil,
        List.mem_append] at member ⊢
      tauto
  | success optionalKeyValue => exact nulFree_successReport identity time (by simp)

theorem nulFree_lastField {report : AgentReport} (reportText : report.NulFree)
    {field : Text × Text} (member : field ∈ report.lastField) : '\x00' ∉ fieldText field := by
  cases report with
  | failure error order =>
      obtain rfl := Option.some.inj member
      decide
  | success optionalKeyValue =>
      obtain ⟨key, value⟩ := reportText field member
      simp only [fieldText, List.mem_append, List.mem_cons, not_or]
      exact ⟨key, by decide, value⟩

/-- What a cut leaves of the last field. -/
theorem front_of_lastField (csv : crates.Csv csvWriteRecord) {report : AgentReport} {text : Text}
    (isFront : Csv.line '|' ((report.base nowRfc3339 vmId).fields.map fieldText) ++ '|' :: text <+:
      report.encoded csvWriteRecord nowRfc3339 vmId) :
    ∃ other, report.lastField = some other ∧ text <+: Csv.writeField '|' (fieldText other) := by
  have given : (report.base nowRfc3339 vmId).fields.map (Csv.writeField '|' ∘ fieldText) ≠ [] := by
    simp [ProvisioningReport.fields]
  rw [encoded_eq_line csv] at isFront
  cases last : report.lastField with
  | none =>
      rw [last, Option.toList_none, List.append_nil] at isFront
      have shorter := isFront.length_le
      simp at shorter
  | some other =>
      rw [last, Option.toList_some, List.map_append, List.map_singleton, Csv.line, Csv.line,
        List.map_append, List.map_singleton, List.map_map, Csv.intercalate_concat given,
        List.prefix_append_right_inj, List.cons_prefix_cons] at isFront
      exact ⟨other, rfl, isFront.2⟩

/-- The report with another field behind its timestamp. -/
theorem exists_extended {report : AgentReport} {text : Text} {field other : Text × Text}
    (last : report.lastField = some other) (isFront : text <+: Csv.writeField '|' (fieldText other))
    (form : Csv.Form '|' (fieldText field) text) (fieldName : IsFieldName field.1)
    (free : field.1 ∉ standardNames .success) :
    ∃ decoded : ProvisioningReport, decoded.fields =
        (report.base nowRfc3339 vmId).fields ++ [field] ∧ decoded.Encodable ∧
      decoded.result = report.result ∧ decoded.vmId = vmId ∧ decoded.timestamp = nowRfc3339 ∧
      ∀ one ∈ decoded.texts, one ∈ (report.base nowRfc3339 vmId).texts ∨ one = field.1 ∨
        one = field.2 := by
  cases report with
  | failure error order =>
      obtain rfl := Option.some.inj last
      have plainUrl : Csv.writeField '|' (fieldText ("documentation_url".toList,
          Error.documentationUrl)) = fieldText ("documentation_url".toList,
            Error.documentationUrl) := by decide
      rw [plainUrl] at isFront
      have isTextFront : fieldText field <+: fieldText ("documentation_url".toList,
          Error.documentationUrl) := by
        cases form with
        | plain plain => exact isFront
        | quoted =>
            obtain ⟨behind, joined⟩ := isFront
            cases joined
      have sameName := (field_of_front fieldName ⟨by decide, by decide⟩ isTextFront).1
      have base := @encodable_base nowRfc3339 vmId (.failure error order)
      refine ⟨{ (AgentReport.failure error order).base nowRfc3339 vmId with
        documentationUrl := some field.2 }, ?_, ⟨base.extraNames, .inr ⟨rfl, rfl⟩⟩, rfl, rfl, rfl, ?_⟩
      · obtain ⟨name, value⟩ := field
        obtain rfl : name = "documentation_url".toList := sameName
        simp [ProvisioningReport.fields, AgentReport.base, Error.report]
      · intro one member
        simp only [ProvisioningReport.texts, AgentReport.base, Option.toList_none,
          Option.toList_some, List.append_nil, List.mem_append, List.mem_singleton] at member ⊢
        tauto
  | success optionalKeyValue =>
      refine ⟨successReport nowRfc3339 vmId (some field), rfl, ?_, rfl, rfl, rfl, ?_⟩
      · apply encodable_successReport
        intro pair member
        obtain rfl := Option.some.inj member
        exact ⟨fieldName, free⟩
      · intro one member
        simp only [ProvisioningReport.texts, AgentReport.base, successReport,
          ProvisioningReport.success, Option.toList_none, Option.toList_some, List.append_nil,
          List.flatMap_cons, List.flatMap_nil, List.mem_append, List.mem_cons,
          List.not_mem_nil, or_false] at member ⊢
        tauto

/-- What a kept report is parsed as. -/
theorem exists_parsed_of_keepsFields (csv : crates.Csv csvWriteRecord)
    (reading : crates.CsvForms) (timestamp : crates.IsTimestamp nowRfc3339)
    {report : AgentReport} (reportText : report.NulFree) (identity : '\x00' ∉ vmId)
    {front : Text} (isFront : front <+: report.encoded csvWriteRecord nowRfc3339 vmId)
    (keeps : KeepsFields (report.base nowRfc3339 vmId) front) :
    ∃ decoded, ProvisioningReport.fromStr crates front = .ok decoded ∧
      decoded.result = report.result ∧ decoded.vmId = vmId := by
  have nulFree := nulFree_base reportText identity timestamp.nulFree
  have lines := Csv.line_forms '|' ((report.base nowRfc3339 vmId).fields.map fieldText)
  have baseSame : (report.base nowRfc3339 vmId).result = report.result ∧
      (report.base nowRfc3339 vmId).vmId = vmId ∧
      (report.base nowRfc3339 vmId).timestamp = nowRfc3339 := by
    cases report <;> exact ⟨rfl, rfl, rfl⟩
  rcases keeps with rfl | ⟨text, field, rfl, form, fieldName, free⟩
  · refine ⟨_, fromStr_forms reading (encodable_base report) nulFree ?_ lines, baseSame.1, baseSame.2.1⟩
    rw [baseSame.2.2]
    exact timestamp.parsed
  · obtain ⟨other, last, isCut⟩ := front_of_lastField csv isFront
    obtain ⟨decoded, fields, encodable, sameResult, sameVmId, sameTime, texts⟩ :=
      @exists_extended nowRfc3339 vmId report text field other last isCut form fieldName free
    have fieldNulFree : '\x00' ∉ fieldText field := by
      intro nul
      apply nulFree_lastField reportText last
      have inText := (Csv.mem_form form (by decide)).mpr nul
      exact (Csv.mem_form (Csv.writeField_form '|' _) (by decide)).mp (isCut.subset inText)
    have decodedNulFree : decoded.NulFree := by
      intro one member
      rcases texts one member with isBase | rfl | rfl
      · exact nulFree one isBase
      · exact fun nul => fieldNulFree (List.mem_append_left _ nul)
      · exact fun nul => fieldNulFree (List.mem_append_right _ (List.mem_cons_of_mem _ nul))
    have forms : List.Forall₂ (Csv.Form '|') (decoded.fields.map fieldText)
        (((report.base nowRfc3339 vmId).fields.map fieldText).map (Csv.writeField '|') ++
          [text]) := by
      rw [fields, List.map_append]
      exact List.rel_append lines (.cons form .nil)
    have parsed := fromStr_forms reading encodable decodedNulFree
      (by rw [sameTime]; exact timestamp.parsed) forms
    rw [Csv.intercalate_concat (by simp [ProvisioningReport.fields])] at parsed
    exact ⟨decoded, parsed, sameResult, sameVmId⟩

/-- Whether a front of an encoded report is parsed. -/
theorem parsed_front_iff (csv : crates.Csv csvWriteRecord) (reading : crates.CsvForms)
    (timestamp : crates.IsTimestamp nowRfc3339)
    (wholeTimestamp : ∀ cut, cut <+: nowRfc3339 → (crates.parseFromRfc3339 cut).isSome →
      cut = nowRfc3339)
    {report : AgentReport} (reportText : report.NulFree) (identity : '\x00' ∉ vmId)
    {front : Text} (isFront : front <+: report.encoded csvWriteRecord nowRfc3339 vmId)
    (pipe : '|' ∈ front) :
    (∃ decoded, ProvisioningReport.fromStr crates front = .ok decoded ∧
      decoded.result = report.result ∧ decoded.vmId = vmId) ↔
      KeepsFields (report.base nowRfc3339 vmId) front := by
  constructor
  · intro parsed
    obtain ⟨decoded, parsed, -⟩ := parsed
    rw [encoded_eq_line csv] at isFront
    have nulFree := nulFree_base reportText identity timestamp.nulFree
    apply keepsFields_of_parsed_front reading (encodable_base report) ?_ (endsInTimestamp_base report) ?_
      isFront pipe parsed
    · intro field member
      rcases List.mem_append.mp member with own | isLast
      · exact ProvisioningReport.nulFree_of_mem_fields nulFree own
      · exact nulFree_lastField reportText (Option.mem_toList.mp isLast)
    · cases report <;> exact wholeTimestamp
  · exact exists_parsed_of_keepsFields csv reading timestamp reportText identity isFront

theorem nulFree_encoded (csv : crates.Csv csvWriteRecord) {report : AgentReport}
    (reportText : report.NulFree) (identity : '\x00' ∉ vmId) (time : '\x00' ∉ nowRfc3339) :
    '\x00' ∉ report.encoded csvWriteRecord nowRfc3339 vmId := by
  have nulFree := nulFree_base reportText identity time
  rw [encoded_eq_line csv]
  apply not_mem_of_validateReportQuoting (validateReportQuoting_line ?_)
  intro text member
  obtain ⟨field, inFields, rfl⟩ := List.mem_map.mp member
  rcases List.mem_append.mp inFields with own | isLast
  · exact ProvisioningReport.nulFree_of_mem_fields nulFree own
  · exact nulFree_lastField reportText (Option.mem_toList.mp isLast)

/-- A report that is not cut keeps its fields, if the one behind the timestamp has a name of
its own. -/
theorem keepsFields_encoded (csv : crates.Csv csvWriteRecord) {report : AgentReport}
    (free : ∀ field ∈ report.lastField, IsFieldName field.1 ∧ field.1 ∉ standardNames .success) :
    KeepsFields (report.base nowRfc3339 vmId) (report.encoded csvWriteRecord nowRfc3339 vmId) := by
  have given : (report.base nowRfc3339 vmId).fields.map (Csv.writeField '|' ∘ fieldText) ≠ [] := by
    simp [ProvisioningReport.fields]
  rw [encoded_eq_line csv]
  cases last : report.lastField with
  | none =>
      rw [Option.toList_none, List.append_nil]
      exact .inl rfl
  | some field =>
      obtain ⟨fieldName, ownName⟩ := free field last
      refine .inr ⟨Csv.writeField '|' (fieldText field), field, ?_, Csv.writeField_form '|' _,
        fieldName, ownName⟩
      rw [Option.toList_some, List.map_append, List.map_singleton, Csv.line, Csv.line,
        List.map_append, List.map_singleton, List.map_map, Csv.intercalate_concat given]

theorem lastField_free {report : AgentReport}
    (pairName : ∀ pair, report = .success (some pair) →
      IsFieldName pair.1 ∧ pair.1 ∉ standardNames .success) :
    ∀ field ∈ report.lastField, IsFieldName field.1 ∧ field.1 ∉ standardNames .success := by
  intro field member
  cases report with
  | failure error order =>
      obtain rfl := Option.some.inj member
      exact ⟨⟨by decide, by decide⟩, by decide⟩
  | success optionalKeyValue =>
      obtain rfl : optionalKeyValue = some field := member
      exact pairName field rfl

theorem pipe_mem_cutReport (csv : crates.Csv csvWriteRecord) (mode : PoolMode)
    (report : AgentReport) :
    '|' ∈ cutReport mode (report.encoded csvWriteRecord nowRfc3339 vmId) := by
  have start : ∃ text, text ++ ['|'] <+: report.encoded csvWriteRecord nowRfc3339 vmId ∧
      Utf8.byteLength (text ++ ['|']) ≤ mode.maxValueSize := by
    rw [encoded_eq_line csv]
    cases report with
    | failure error order =>
        refine ⟨"result=error".toList, ⟨_, rfl⟩, ?_⟩
        cases mode <;> decide
    | success optionalKeyValue =>
        refine ⟨"result=success".toList, ⟨_, rfl⟩, ?_⟩
        cases mode <;> decide
  obtain ⟨text, isFront, fits⟩ := start
  rw [cutReport_eq]
  exact (Utf8.isPrefix_takeBytes isFront fits).subset (List.mem_append_right _ (by simp))

end AgentReport

/-- What the reader finds is what the cut report is parsed as. -/
theorem decoded_iff_parsed {crates : Crates} {mode : PoolMode} {text : Text} {order : HashOrder}
    {world stored after : World} {result : Except KvpError (List Entry)}
    {expected : ProvisioningReport → Prop} (wellFormed : world.WellFormed) (nulFree : '\x00' ∉ text)
    (written : Program.Runs (HandleStep noFaults) (writeProvisioningReport mode text).run world
      (.ok ()) stored)
    (read : Program.Runs (HandleStep noFaults) (DiagnosticReader.entries crates order).run stored
      result after) :
    (∃ entries decoded, result = .ok entries ∧
      entries.filter Entry.isForReport = [.report decoded] ∧ expected decoded) ↔
    ∃ decoded, ProvisioningReport.fromStr crates (cutReport mode text) = .ok decoded ∧
      expected decoded := by
  obtain ⟨-, storedWellFormed, replaced⟩ :=
    writeProvisioningReport_replaces wellFormed nulFree written
  obtain ⟨record, alone, recordDecoded⟩ := replaced.stored
  obtain ⟨entries, rfl, only⟩ := reportEntries_of_stored storedWellFormed alone recordDecoded read
  constructor
  · intro found
    obtain ⟨other, decoded, same, shown, meets⟩ := found
    obtain rfl := Except.ok.inj same
    rw [only, List.singleton_inj] at shown
    exact ⟨decoded, reportEntry_eq_report_iff.mp shown, meets⟩
  · intro parsed
    obtain ⟨decoded, parsed, meets⟩ := parsed
    exact ⟨entries, decoded, rfl, by rw [only, reportEntry_eq_report_iff.mpr parsed], meets⟩

/-- A stored report is decoded with its result and its VM identity when the cut to one value
keeps the fields through the timestamp, and a whole field at most behind them; so is every
report that fits into one value and whose optional pair does not take a standard name. -/
theorem stored_agent_report_is_decodable_iff {crates : Crates} {csvWriteRecord : CsvWriteRecord}
    {nowRfc3339 vmId : Text} {mode : PoolMode} {report : AgentReport} {order : HashOrder}
    {world stored after : World} {result : Except KvpError (List Entry)}
    (csv : crates.Csv csvWriteRecord) (reading : crates.CsvForms)
    (timestamp : crates.IsTimestamp nowRfc3339)
    (wholeTimestamp : ∀ cut, cut <+: nowRfc3339 → (crates.parseFromRfc3339 cut).isSome →
      cut = nowRfc3339)
    (wellFormed : world.WellFormed) (reportText : report.NulFree) (identity : '\x00' ∉ vmId)
    (written : Program.Runs (HandleStep noFaults) (writeProvisioningReport mode
      (report.encoded csvWriteRecord nowRfc3339 vmId)).run world (.ok ()) stored)
    (read : Program.Runs (HandleStep noFaults) (DiagnosticReader.entries crates order).run stored
      result after) :
    ((∃ entries decoded, result = .ok entries ∧
      entries.filter Entry.isForReport = [.report decoded] ∧
      decoded.result = report.result ∧ decoded.vmId = vmId) ↔
    KeepsFields (report.base nowRfc3339 vmId)
      (cutReport mode (report.encoded csvWriteRecord nowRfc3339 vmId))) ∧
    (Utf8.byteLength (report.encoded csvWriteRecord nowRfc3339 vmId) ≤ mode.maxValueSize →
      (∀ pair, report = .success (some pair) →
        IsFieldName pair.1 ∧ pair.1 ∉ standardNames .success) →
      ∃ entries decoded, result = .ok entries ∧
        entries.filter Entry.isForReport = [.report decoded] ∧
        decoded.result = report.result ∧ decoded.vmId = vmId) := by
  have nulFree := AgentReport.nulFree_encoded csv reportText identity timestamp.nulFree
  have decodable : (∃ entries decoded, result = .ok entries ∧
      entries.filter Entry.isForReport = [.report decoded] ∧
      decoded.result = report.result ∧ decoded.vmId = vmId) ↔
      KeepsFields (report.base nowRfc3339 vmId)
        (cutReport mode (report.encoded csvWriteRecord nowRfc3339 vmId)) := by
    rw [decoded_iff_parsed wellFormed nulFree written read]
    apply AgentReport.parsed_front_iff csv reading timestamp wholeTimestamp reportText identity
    · rw [cutReport_eq]
      exact Utf8.takeBytes_isPrefix _ _
    · exact AgentReport.pipe_mem_cutReport csv mode report
  refine ⟨decodable, fun fits pairName => decodable.mpr ?_⟩
  rw [cutReport_eq, Utf8.takeBytes_of_le fits]
  exact AgentReport.keepsFields_encoded csv (AgentReport.lastField_free pairName)

/-! ## A short report and a long one -/

/-- The reference functions, with times that end in `Z` only. -/
def zuluCrates : Crates :=
  { ReferenceCrates.withCsv with
    parseFromRfc3339 := fun text =>
      if text.getLast? == some 'Z' then ReferenceCrates.parseTime text else none }

theorem zuluCrates_csv : zuluCrates.Csv ReferenceCrates.csvWriteRecord where
  write_necessary := ReferenceCrates.withCsv_csv.write_necessary
  read_line := ReferenceCrates.withCsv_csv.read_line
  read_subset := ReferenceCrates.withCsv_csv.read_subset

theorem zuluCrates_csvForms : zuluCrates.CsvForms where
  read_forms := ReferenceCrates.withCsv_csvForms.read_forms

def reportTime : Text := "2026-06-17T00:00:00Z".toList

theorem reportTime_isTimestamp : zuluCrates.IsTimestamp reportTime := ⟨by decide, by decide⟩

theorem reportTime_whole (cut : Text) (isFront : cut <+: reportTime)
    (parsed : (zuluCrates.parseFromRfc3339 cut).isSome) : cut = reportTime := by
  have checked : ∀ front ∈ reportTime.inits,
      (zuluCrates.parseFromRfc3339 front).isSome → front = reportTime := by decide +kernel
  exact checked cut ((List.mem_inits cut reportTime).mpr isFront) parsed

def sshdFailure (details : Text) : AgentReport := .failure (.loadSshdConfig details) .stored

theorem sshdFailure_nulFree {details : Text} (nulFree : '\x00' ∉ details) :
    (sshdFailure details).NulFree := by
  intro pair member
  obtain rfl := List.mem_singleton.mp member
  exact nulFree

/-- A report in a pool that was missing, and the reader behind it. -/
private theorem exists_stored_and_read {details : Text} (order : HashOrder)
    (nulFree : '\x00' ∉ details) :
    ∃ stored result after,
      Program.Runs (HandleStep noFaults) (writeProvisioningReport .safe
        ((sshdFailure details).encoded ReferenceCrates.csvWriteRecord reportTime
          "vm".toList)).run missingPool (.ok ()) stored ∧
      Program.Runs (HandleStep noFaults) (DiagnosticReader.entries zuluCrates order).run stored
        result after := by
  have encodedNulFree := @AgentReport.nulFree_encoded zuluCrates ReferenceCrates.csvWriteRecord
    reportTime "vm".toList zuluCrates_csv _ (sshdFailure_nulFree nulFree) (by decide)
    reportTime_isTimestamp.nulFree
  have written := runs_execute noFaults (writeProvisioningReport .safe
    ((sshdFailure details).encoded ReferenceCrates.csvWriteRecord reportTime
      "vm".toList)).run missingPool
  obtain ⟨returned, -, -⟩ :=
    writeProvisioningReport_replaces missingPool_wellFormed encodedNulFree written
  rw [returned] at written
  exact ⟨_, _, _, written, runs_execute noFaults _ _⟩

theorem stored_agent_report_is_decodable_iff_short :
    ∃ stored result after,
      Program.Runs (HandleStep noFaults) (writeProvisioningReport .safe
        ((sshdFailure "bad | config".toList).encoded ReferenceCrates.csvWriteRecord reportTime
          "vm".toList)).run missingPool (.ok ()) stored ∧
      Program.Runs (HandleStep noFaults)
        (DiagnosticReader.entries zuluCrates ⟨id, fun _ => .refl _⟩).run stored result after ∧
      ∃ entries decoded, result = .ok entries ∧
        entries.filter Entry.isForReport = [.report decoded] ∧ decoded.result = .error ∧
        decoded.vmId = "vm".toList := by
  obtain ⟨stored, result, after, written, read⟩ :=
    @exists_stored_and_read "bad | config".toList ⟨id, fun _ => .refl _⟩ (by decide)
  refine ⟨stored, result, after, written, read, ?_⟩
  exact (stored_agent_report_is_decodable_iff zuluCrates_csv zuluCrates_csvForms
    reportTime_isTimestamp reportTime_whole missingPool_wellFormed
    (sshdFailure_nulFree (by decide)) (by decide) written read).2 (by decide +kernel) nofun

/-- Details of more than one value push the identity of the machine out of the report. -/
theorem long_agent_report_is_not_decodable :
    ∃ stored result after,
      Program.Runs (HandleStep noFaults) (writeProvisioningReport .safe
        ((sshdFailure (List.replicate 1022 'x')).encoded ReferenceCrates.csvWriteRecord reportTime
          "vm".toList)).run missingPool (.ok ()) stored ∧
      Program.Runs (HandleStep noFaults)
        (DiagnosticReader.entries zuluCrates ⟨id, fun _ => .refl _⟩).run stored result after ∧
      ¬ ∃ entries decoded, result = .ok entries ∧
        entries.filter Entry.isForReport = [.report decoded] ∧ decoded.result = .error ∧
        decoded.vmId = "vm".toList := by
  have noNul : '\x00' ∉ List.replicate 1022 'x' := by
    intro member
    exact absurd (List.eq_of_mem_replicate member) (by decide)
  have reportText := sshdFailure_nulFree noNul
  obtain ⟨stored, result, after, written, read⟩ :=
    @exists_stored_and_read (List.replicate 1022 'x') ⟨id, fun _ => .refl _⟩ noNul
  refine ⟨stored, result, after, written, read, ?_⟩
  have encodedNulFree := @AgentReport.nulFree_encoded zuluCrates ReferenceCrates.csvWriteRecord
    reportTime "vm".toList zuluCrates_csv _ reportText (by decide) reportTime_isTimestamp.nulFree
  have front : cutReport .safe ((sshdFailure (List.replicate 1022 'x')).encoded
      ReferenceCrates.csvWriteRecord reportTime "vm".toList) <+:
      (sshdFailure (List.replicate 1022 'x')).encoded ReferenceCrates.csvWriteRecord reportTime
        "vm".toList := by
    rw [cutReport_eq]
    exact Utf8.takeBytes_isPrefix _ _
  rw [decoded_iff_parsed missingPool_wellFormed encodedNulFree written read]
  have parsedIff := AgentReport.parsed_front_iff zuluCrates_csv zuluCrates_csvForms
    reportTime_isTimestamp reportTime_whole reportText (by decide) front
    (AgentReport.pipe_mem_cutReport zuluCrates_csv .safe _)
  intro parsed
  have keeps := parsedIff.mp parsed
  have kept : Csv.line '|' (((sshdFailure (List.replicate 1022 'x')).base reportTime
      "vm".toList).fields.map fieldText) <+:
      cutReport .safe ((sshdFailure (List.replicate 1022 'x')).encoded
        ReferenceCrates.csvWriteRecord reportTime "vm".toList) := by
    rcases keeps with same | ⟨text, field, same, -⟩
    · exact ⟨[], by rw [same, List.append_nil]⟩
    · exact ⟨_, same.symm⟩
  have short : (cutReport .safe ((sshdFailure (List.replicate 1022 'x')).encoded
      ReferenceCrates.csvWriteRecord reportTime "vm".toList)).length ≤ 1022 := by
    rw [cutReport_eq]
    exact (Utf8.length_le_byteLength _).trans (Utf8.byteLength_takeBytes_le _ _)
  have long : 1022 < (Csv.line '|' (((sshdFailure (List.replicate 1022 'x')).base reportTime
      "vm".toList).fields.map fieldText)).length := by decide +kernel
  exact absurd kept.length_le (by omega)

end AzureInit.Agent
