import AzureInit.Diagnostics.ReportFields
import AzureInit.Diagnostics.ReportQuoting
import AzureInit.Diagnostics.ReferenceCrates

/-! Encoded reports are parsed as the reports that they encode. -/

set_option autoImplicit false

namespace AzureInit.Diagnostics

open Foundation
open Foundation.Fallible

namespace ReferenceCrates

def csvWriteRecord : CsvWriteRecord := fun fields => Csv.line '|' fields ++ ['\n']

/-- The reference functions with a csv reader. -/
def withCsv : Crates :=
  { reference with csvFirstRecord := fun text => (Csv.readRecord? '|' text).map some }

theorem withCsv_csv : withCsv.Csv csvWriteRecord where
  write_necessary _ _ := rfl
  read_line fields isRecord := by
    have notBlank : fields.map (Csv.writeField '|') ≠ [[]] := by
      intro blank
      obtain ⟨field, rfl, written⟩ := List.map_eq_singleton_iff.mp blank
      exact Csv.writeField_ne_nil (by simpa using isRecord.notBlank) written
    have read := Csv.readRecord?_forms (by decide) (by decide) isRecord.given notBlank
      (Csv.line_forms '|' fields)
    exact congrArg (Option.map some) read
  read_subset text fields read := by
    obtain ⟨record, found, same⟩ := Option.map_eq_some_iff.mp read
    cases same
    exact Csv.readRecord?_subset found

end ReferenceCrates

/-! ## Line ends -/

theorem popLineFeed_line_feed (text : Text) : popLineFeed (text ++ ['\n']) = text := by
  simp [popLineFeed]

theorem stripLineEnd_of_getLast? {value : Text} (noLineFeed : value.getLast? ≠ some '\n') :
    stripLineEnd value = value := by
  have kept : ∀ lineEnd : Text, lineEnd.getLast? = some '\n' →
      value.dropSuffix? lineEnd = none := by
    intro lineEnd ended
    cases cut : value.dropSuffix? lineEnd with
    | none => rfl
    | some front =>
        obtain ⟨behind, joined, same⟩ := List.dropSuffix?_eq_some_iff.mp cut
        rw [beq_iff_eq.mp same] at joined
        apply absurd _ noLineFeed
        rw [joined, List.getLast?_append, ended]
        rfl
  unfold stripLineEnd
  rw [kept "\r\n".toList rfl, kept "\n".toList rfl]
  rfl

theorem stripLineEnd_cases (value : Text) :
    value = stripLineEnd value ∨ value = stripLineEnd value ++ "\n".toList ∨
      value = stripLineEnd value ++ "\r\n".toList := by
  unfold stripLineEnd
  cases returned : value.dropSuffix? "\r\n".toList with
  | some front =>
      obtain ⟨behind, joined, same⟩ := List.dropSuffix?_eq_some_iff.mp returned
      rw [beq_iff_eq.mp same] at joined
      exact .inr (.inr joined)
  | none =>
      cases fed : value.dropSuffix? "\n".toList with
      | some front =>
          obtain ⟨behind, joined, same⟩ := List.dropSuffix?_eq_some_iff.mp fed
          rw [beq_iff_eq.mp same] at joined
          exact .inr (.inl joined)
      | none => exact .inl rfl

/-! ## What a report has to be -/

namespace ProvisioningReport

/-- Every text in the report. -/
def texts (report : ProvisioningReport) : List Text :=
  [report.agent, report.vmId, report.timestamp] ++ report.reason.toList ++
    report.documentationUrl.toList ++ report.extra.flatMap fun field => [field.1, field.2]

def NulFree (report : ProvisioningReport) : Prop := ∀ text ∈ report.texts, '\x00' ∉ text

/-- Reports made by the builders from extra fields whose names are free. -/
inductive Built : ProvisioningReport → Prop where
  | success {nowRfc3339 agent vmId : Text} {ppsType : ReportPpsType} :
      Built (success nowRfc3339 agent vmId ppsType)
  | failure {nowRfc3339 agent vmId reason : Text} {ppsType : ReportPpsType} :
      Built (failure nowRfc3339 agent vmId reason ppsType)
  | withDocumentationUrl {report : ProvisioningReport} {url : Text} : Built report →
      report.result = .error → Built (report.withDocumentationUrl url)
  | withExtra {report : ProvisioningReport} {key value : Text} : Built report →
      IsFieldName key → key ∉ standardNames report.result → Built (report.withExtra key value)

/-- Nothing in the report is lost or mistaken when it is written. -/
structure Encodable (report : ProvisioningReport) : Prop where
  extraNames : ∀ field ∈ report.extra, IsFieldName field.1 ∧ field.1 ∉ standardNames report.result
  failure : (report.result = .success ∧ report.reason = none ∧ report.documentationUrl = none) ∨
    (report.result = .error ∧ report.reason.isSome)

theorem Encodable.named {report : ProvisioningReport} (encodable : Encodable report) :
    ∀ field ∈ report.extra, IsFieldName field.1 :=
  fun field member => (encodable.extraNames field member).1

theorem Built.encodable {report : ProvisioningReport} (built : Built report) :
    Encodable report := by
  induction built with
  | success => exact ⟨by simp [ProvisioningReport.success], .inl ⟨rfl, rfl, rfl⟩⟩
  | failure => exact ⟨by simp [ProvisioningReport.failure], .inr ⟨rfl, rfl⟩⟩
  | withDocumentationUrl _ isError ih =>
      refine ⟨ih.extraNames, ?_⟩
      rcases ih.failure with ⟨isSuccess, -⟩ | given
      · rw [isError] at isSuccess
        cases isSuccess
      · exact .inr given
  | withExtra _ named free ih =>
      refine ⟨?_, ih.failure⟩
      intro field member
      rcases List.mem_append.mp member with earlier | added
      · exact ih.extraNames field earlier
      · rw [List.mem_singleton.mp added]
        exact ⟨named, free⟩

theorem valuesOf_extra {report : ProvisioningReport} (encodable : Encodable report) {name : Text}
    (standard : name ∈ standardNames report.result) : valuesOf name report.extra = [] := by
  rw [valuesOf_eq_nil_iff]
  intro field member same
  rw [← same] at standard
  exact (encodable.extraNames field member).2 standard

theorem filter_extra {report : ProvisioningReport} (encodable : Encodable report) :
    (report.extra.filter fun field => !(standardNames report.result).contains field.1) =
      report.extra := by
  rw [List.filter_eq_self]
  intro field member
  simpa using (encodable.extraNames field member).2

/-- The written fields describe the report. -/
theorem describes_fields {report : ProvisioningReport} (encodable : Encodable report) :
    Describes report.fields report := by
  have free := @valuesOf_extra report encodable
  have kept := filter_extra encodable
  obtain ⟨result, agent, vmId, timestamp, ppsType, reason, documentationUrl, extra⟩ := report
  cases result with
  | success =>
      obtain ⟨rfl, rfl⟩ : reason = none ∧ documentationUrl = none := by
        rcases encodable.failure with given | isError
        · exact given.2
        · cases isError.1
      simp only [valuesOf, List.map_eq_nil_iff] at free
      constructor <;> simp +decide [fields, valuesOf, free, DescribesFailure]
      simpa using kept.symm
  | error =>
      simp only [valuesOf, List.map_eq_nil_iff] at free
      have given : reason.isSome := by
        rcases encodable.failure with isSuccess | given
        · cases isSuccess.1
        · exact given.2
      obtain ⟨cause, rfl⟩ := Option.isSome_iff_exists.mp given
      cases documentationUrl with
      | none =>
          constructor <;> simp +decide [fields, valuesOf, free, DescribesFailure]
          simpa using kept.symm
      | some url =>
          constructor <;> simp +decide [fields, valuesOf, free, DescribesFailure]
          simpa using kept.symm

/-- A written field is a standard one, or an extra one. -/
theorem mem_fields {report : ProvisioningReport} {field : Text × Text}
    (member : field ∈ report.fields) :
    (field.1 ∈ standardNames .error ∧ (field.2 ∈ report.texts ∨ field.2 = report.result.asStr ∨
      field.2 = report.ppsType.asStr)) ∨ field ∈ report.extra := by
  unfold fields at member
  cases result : report.result with
  | success =>
      simp only [result, List.mem_cons, List.mem_append, List.not_mem_nil, or_false] at member
      rcases member with rfl | (rfl | rfl | rfl | rfl) | isExtra
      · exact .inl ⟨by simp [standardNames], .inr (.inl rfl)⟩
      · exact .inl ⟨by simp [standardNames], .inl (by simp [texts])⟩
      · exact .inl ⟨by simp [standardNames], .inr (.inr rfl)⟩
      · exact .inl ⟨by simp [standardNames], .inl (by simp [texts])⟩
      · exact .inl ⟨by simp [standardNames], .inl (by simp [texts])⟩
      · exact .inr isExtra
  | error =>
      simp only [result, List.mem_cons, List.mem_append, List.not_mem_nil, or_false, List.mem_map]
        at member
      rcases member with rfl | (((⟨cause, given, rfl⟩ | rfl) | isExtra) | rfl | rfl | rfl) |
        ⟨url, given, rfl⟩
      · exact .inl ⟨by simp [standardNames], .inr (.inl rfl)⟩
      · exact .inl ⟨by simp [standardNames], .inl (by simp [texts, given])⟩
      · exact .inl ⟨by simp [standardNames], .inl (by simp [texts])⟩
      · exact .inr isExtra
      · exact .inl ⟨by simp [standardNames], .inr (.inr rfl)⟩
      · exact .inl ⟨by simp [standardNames], .inl (by simp [texts])⟩
      · exact .inl ⟨by simp [standardNames], .inl (by simp [texts])⟩
      · exact .inl ⟨by simp [standardNames], .inl (by simp [texts, given])⟩

theorem isFieldName_of_mem_fields {report : ProvisioningReport}
    (named : ∀ field ∈ report.extra, IsFieldName field.1) {field : Text × Text}
    (member : field ∈ report.fields) : IsFieldName field.1 := by
  rcases mem_fields member with ⟨standard, -⟩ | isExtra
  · have names : ∀ name ∈ standardNames .error, name ≠ [] ∧ '=' ∉ name := by decide
    exact names _ standard
  · exact named field isExtra

theorem nulFree_of_mem_fields {report : ProvisioningReport} (nulFree : report.NulFree)
    {field : Text × Text} (member : field ∈ report.fields) : '\x00' ∉ fieldText field := by
  have parts : '\x00' ∉ field.1 ∧ '\x00' ∉ field.2 := by
    rcases mem_fields member with ⟨standard, value⟩ | isExtra
    · have names : ∀ name ∈ standardNames .error, '\x00' ∉ name := by decide
      refine ⟨names _ standard, ?_⟩
      rcases value with given | token | token
      · exact nulFree _ given
      · rw [token]
        cases report.result <;> decide
      · rw [token]
        cases report.ppsType <;> decide
    · have inTexts : ∀ text ∈ [field.1, field.2], text ∈ report.texts := fun text member =>
        List.mem_append_right _ (List.mem_flatMap.mpr ⟨field, isExtra, member⟩)
      exact ⟨nulFree _ (inTexts _ (by simp)), nulFree _ (inTexts _ (by simp))⟩
  simp only [fieldText, List.mem_append, List.mem_cons, not_or]
  exact ⟨parts.1, by decide, parts.2⟩

theorem isRecord_fields (report : ProvisioningReport) :
    IsRecord (report.fields.map fieldText) where
  given := by simp [fields]
  notBlank := by simp [fields, fieldText]
  noByteOrderMark := by
    have first : (report.fields.map fieldText).head?.bind List.head? = some 'r' := rfl
    rw [first]
    decide

variable {crates : Crates} {csvWriteRecord : CsvWriteRecord}

theorem encode_eq_line (csv : crates.Csv csvWriteRecord) (report : ProvisioningReport) :
    report.encode csvWriteRecord = Csv.line '|' (report.fields.map fieldText) := by
  rw [encode, csv.write_necessary _ report.isRecord_fields, popLineFeed_line_feed]

theorem stripLineEnd_encode (csv : crates.Csv csvWriteRecord) (report : ProvisioningReport) :
    stripLineEnd (report.encode csvWriteRecord) =
      Csv.line '|' (report.fields.map fieldText) := by
  rw [encode_eq_line csv]
  exact stripLineEnd_of_getLast? (Csv.getLast?_forms (by decide) (Csv.line_forms '|' _))

/-- An encodable report is parsed from its encoding. -/
theorem fromStr_encode (csv : crates.Csv csvWriteRecord) {report : ProvisioningReport}
    (encodable : Encodable report) (nulFree : report.NulFree)
    (timestamp : (crates.parseFromRfc3339 report.timestamp).isSome) :
    fromStr crates (report.encode csvWriteRecord) = .ok report := by
  rw [fromStr_eq_ok_iff, stripLineEnd_encode csv]
  refine ⟨?_, report.fields, csv.read_line _ report.isRecord_fields, ?_, ?_, timestamp⟩
  · apply validateReportQuoting_line
    intro text member
    obtain ⟨field, inFields, rfl⟩ := List.mem_map.mp member
    exact nulFree_of_mem_fields nulFree inFields
  · exact fun field member => isFieldName_of_mem_fields encodable.named member
  · exact describes_fields encodable

/-- What is parsed from an encoding is described by the written fields. -/
theorem describes_of_fromStr_encode (csv : crates.Csv csvWriteRecord)
    {report decoded : ProvisioningReport} (named : ∀ field ∈ report.extra, IsFieldName field.1)
    (parsed : fromStr crates (report.encode csvWriteRecord) = .ok decoded) :
    Describes report.fields decoded := by
  obtain ⟨-, fields, read, decodedNamed, describes, -⟩ := fromStr_eq_ok_iff.mp parsed
  rw [stripLineEnd_encode csv, csv.read_line _ report.isRecord_fields] at read
  have sameTexts : report.fields.map fieldText = fields.map fieldText := by simpa using read
  have written := mapM_splitReportField_eq_ok_iff.mpr
    ⟨rfl, fun field member => isFieldName_of_mem_fields named member⟩
  rw [sameTexts, mapM_splitReportField_eq_ok_iff.mpr ⟨rfl, decodedNamed⟩] at written
  rw [← Except.ok.inj written]
  exact describes

/-! ## Parsed reports -/

theorem mem_valuesOf {name value : Text} {fields : List (Text × Text)} :
    value ∈ valuesOf name fields ↔ (name, value) ∈ fields := by
  simp [valuesOf]

theorem encodable_of_describes {report : ProvisioningReport} {fields : List (Text × Text)}
    (describes : Describes fields report) (named : ∀ field ∈ fields, IsFieldName field.1) :
    Encodable report := by
  constructor
  · intro field member
    rw [describes.extra, List.mem_filter] at member
    exact ⟨named field member.1, by simpa using member.2⟩
  · have failure := describes.failure
    unfold DescribesFailure at failure
    cases result : report.result with
    | success =>
        rw [result] at failure
        exact .inl ⟨rfl, failure⟩
    | error =>
        rw [result] at failure
        exact .inr ⟨rfl, failure.1⟩

theorem mem_fieldText {field : Text × Text} {text : Text} {c : Char}
    (part : text = field.1 ∨ text = field.2) (member : c ∈ text) : c ∈ fieldText field := by
  simp only [fieldText, List.mem_append, List.mem_cons]
  rcases part with rfl | rfl
  · exact .inl member
  · exact .inr (.inr member)

/-- Every text of a report stands in one of its fields. -/
theorem exists_field_of_describes {report : ProvisioningReport} {fields : List (Text × Text)}
    (describes : Describes fields report) {text : Text} (member : text ∈ report.texts) :
    ∃ field ∈ fields, text = field.1 ∨ text = field.2 := by
  have inField : ∀ name, text ∈ valuesOf name fields → ∃ field ∈ fields,
      text = field.1 ∨ text = field.2 := fun name found =>
    ⟨_, mem_valuesOf.mp found, .inr rfl⟩
  have failure := describes.failure
  unfold DescribesFailure at failure
  simp only [texts, List.mem_append, List.mem_cons, List.not_mem_nil, or_false,
    List.mem_flatMap] at member
  rcases member with (((rfl | rfl | rfl) | isReason) | isUrl) | ⟨field, isExtra, part⟩
  · exact inField _ (by rw [describes.agent]; exact List.mem_singleton_self _)
  · exact inField _ (by rw [describes.vmId]; exact List.mem_singleton_self _)
  · exact inField _ (by rw [describes.timestamp]; exact List.mem_singleton_self _)
  · cases result : report.result with
    | success =>
        simp only [result] at failure
        rw [failure.1] at isReason
        cases isReason
    | error =>
        simp only [result] at failure
        rw [← failure.2.1] at isReason
        exact inField _ isReason
  · cases result : report.result with
    | success =>
        simp only [result] at failure
        rw [failure.2] at isUrl
        cases isUrl
    | error =>
        simp only [result] at failure
        rw [← failure.2.2] at isUrl
        exact inField _ isUrl
  · rw [describes.extra, List.mem_filter] at isExtra
    exact ⟨field, isExtra.1, part⟩

/-- A NUL in a report is written, too. -/
theorem nulFree_of_encode (csv : crates.Csv csvWriteRecord) {report : ProvisioningReport}
    (encodable : Encodable report) (absent : '\x00' ∉ report.encode csvWriteRecord) :
    report.NulFree := by
  intro text member nul
  obtain ⟨field, inFields, part⟩ :=
    exists_field_of_describes (describes_fields encodable) member
  apply absent
  rw [encode_eq_line csv]
  apply csv.read_subset _ _ (csv.read_line _ report.isRecord_fields) _
    (List.mem_map_of_mem inFields)
  exact mem_fieldText part nul

/-- A parsed report has nothing that its encoding could lose. -/
theorem encodable_of_fromStr (csv : crates.Csv csvWriteRecord) {value : Text}
    {report : ProvisioningReport} (parsed : fromStr crates value = .ok report) :
    Encodable report ∧ report.NulFree ∧ (crates.parseFromRfc3339 report.timestamp).isSome := by
  obtain ⟨quoting, fields, read, named, describes, timestamp⟩ := fromStr_eq_ok_iff.mp parsed
  refine ⟨encodable_of_describes describes named, ?_, timestamp⟩
  intro text member nul
  obtain ⟨field, inFields, part⟩ := exists_field_of_describes describes member
  have inValue := csv.read_subset _ _ read _ (List.mem_map_of_mem inFields) _
    (mem_fieldText part nul)
  exact not_mem_of_validateReportQuoting quoting inValue

/-- Reports that the builders make are parsed from their encodings, and so is every
report that has been parsed. -/
theorem encoded_reports_are_parsed {crates : Crates} {csvWriteRecord : CsvWriteRecord}
    (csv : crates.Csv csvWriteRecord) :
    (∀ report : ProvisioningReport, Built report → report.NulFree →
      (crates.parseFromRfc3339 report.timestamp).isSome →
        fromStr crates (report.encode csvWriteRecord) = .ok report) ∧
    (∀ (value : Text) (report : ProvisioningReport), fromStr crates value = .ok report →
      fromStr crates (report.encode csvWriteRecord) = .ok report) := by
  constructor
  · intro report built nulFree timestamp
    exact fromStr_encode csv built.encodable nulFree timestamp
  · intro value report parsed
    obtain ⟨encodable, nulFree, timestamp⟩ := encodable_of_fromStr csv parsed
    exact fromStr_encode csv encodable nulFree timestamp

/-- A failure with an empty VM identity and special characters everywhere else. -/
def awkwardReport : ProvisioningReport :=
  (failure "2026-06-17T00:00:00Z".toList "agent|\"1\"".toList [] "a\r\nb=c".toList
    .none).withExtra "k".toList "=|".toList

theorem encoded_reports_are_parsed_awkward :
    fromStr ReferenceCrates.withCsv (awkwardReport.encode ReferenceCrates.csvWriteRecord) =
      .ok awkwardReport := by
  have built : Built awkwardReport := .withExtra .failure ⟨by decide, by decide⟩ (by decide)
  have nulFree : awkwardReport.NulFree := by
    unfold NulFree
    decide
  have parsed := (encoded_reports_are_parsed ReferenceCrates.withCsv_csv).1 _ built nulFree
    (by decide)
  exact (encoded_reports_are_parsed ReferenceCrates.withCsv_csv).2 _ _ parsed

end ProvisioningReport

end AzureInit.Diagnostics
