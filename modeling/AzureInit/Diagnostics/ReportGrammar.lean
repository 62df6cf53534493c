import AzureInit.Diagnostics.ReportRoundTrip

/-! The texts that the quoting check accepts are the records of the csv reader, and
nothing of an accepted report is left out. -/

set_option autoImplicit false

namespace AzureInit.Diagnostics

open Foundation
open Foundation.Fallible

/-- The reader follows the usual automaton. A byte order mark in front is left aside. -/
structure Crates.CsvReader (crates : Crates) : Prop where
  follows : ∀ text : Text, text.head? ≠ some '\uFEFF' →
    crates.csvFirstRecord text = (Csv.readRecord? '|' text).map some

theorem ReferenceCrates.withCsv_csvReader : ReferenceCrates.withCsv.CsvReader where
  follows _ _ := rfl

/-- A list of fields between pipes, each one plain or between quotes. -/
def IsQuotedRecord (text : Text) (record : List Text) : Prop :=
  ∃ texts, texts ≠ [] ∧ text = ['|'].intercalate texts ∧
    List.Forall₂ (Csv.Form '|') record texts

/-! ## What is accepted -/

/-- The front of a field that the automaton has read when it is in a state. -/
def Begun : QuotingState → Text → Prop
  | .start, front => front = []
  | .unquoted, front => ∀ c ∈ front, Csv.isSpecial '|' c = false
  | .quoted, front => ∃ body : Text, front = '"' :: body.flatMap Csv.escapeChar
  | .closed, front => ∃ field, front = Csv.quoted field

theorem Begun.form {state : QuotingState} {front : Text} (begun : Begun state front)
    (outside : state ≠ .quoted) : ∃ field, Csv.Form '|' field front := by
  cases state with
  | quoted => exact absurd rfl outside
  | start =>
      cases begun
      exact ⟨[], .plain (by simp)⟩
  | unquoted => exact ⟨front, .plain begun⟩
  | closed =>
      obtain ⟨field, rfl⟩ := begun
      exact ⟨field, .quoted⟩

/-- A step ends the field, or the field goes on. -/
theorem quotingCharStep_begun {state after : QuotingState} {front : Text} {c : Char}
    (begun : Begun state front) (stepped : quotingCharStep state c = .ok after) :
    (c = '|' ∧ after = .start ∧ state ≠ .quoted) ∨ Begun after (front ++ [c]) := by
  cases (quotingCharStep_eq_ok_iff.mp stepped).2 with
  | opens =>
      cases begun
      exact .inr ⟨[], rfl⟩
  | separates outside => exact .inl ⟨rfl, rfl, outside⟩
  | plain outside isPlain =>
      right
      cases outside with
      | inl isStart =>
          subst isStart
          cases begun
          exact List.forall_mem_singleton.mpr isPlain
      | inr isUnquoted =>
          subst isUnquoted
          exact List.forall_mem_append.mpr ⟨begun, List.forall_mem_singleton.mpr isPlain⟩
  | inside notQuote =>
      obtain ⟨body, rfl⟩ := begun
      exact .inr ⟨body ++ [c], by simp [Csv.escapeChar, notQuote]⟩
  | closes =>
      obtain ⟨body, rfl⟩ := begun
      exact .inr ⟨body, rfl⟩
  | doubles =>
      obtain ⟨field, rfl⟩ := begun
      exact .inr ⟨field ++ ['"'], by simp [Csv.quoted, Csv.escapeChar]⟩

theorem exists_record_of_foldlM {state after : QuotingState} {front text : Text}
    (begun : Begun state front) (ran : text.foldlM quotingCharStep state = .ok after)
    (outside : after ≠ .quoted) : ∃ record, IsQuotedRecord (front ++ text) record := by
  induction text generalizing state front with
  | nil =>
      cases ran
      obtain ⟨field, form⟩ := begun.form outside
      exact ⟨[field], [front], by simp, by simp, .cons form .nil⟩
  | cons c text ih =>
      rw [List.foldlM_cons, bind_eq_ok_iff] at ran
      obtain ⟨middle, stepped, ran⟩ := ran
      cases quotingCharStep_begun begun stepped with
      | inl ended =>
          obtain ⟨rfl, rfl, closed⟩ := ended
          obtain ⟨field, form⟩ := begun.form closed
          obtain ⟨record, texts, given, joined, forms⟩ := @ih .start [] rfl ran
          refine ⟨field :: record, front :: texts, by simp, ?_, .cons form forms⟩
          cases texts with
          | nil => exact absurd rfl given
          | cons next texts =>
              rw [List.nil_append] at joined
              rw [List.intercalate_cons_cons, ← joined, List.append_assoc, List.singleton_append]
      | inr goesOn =>
          rw [List.append_cons]
          exact ih goesOn ran

/-- The quoting check accepts exactly the quoted records without NUL. -/
theorem validateReportQuoting_iff_record {value : Text} :
    validateReportQuoting value = .ok () ↔
      '\x00' ∉ value ∧ ∃ record, IsQuotedRecord value record := by
  constructor
  · intro accepted
    refine ⟨not_mem_of_validateReportQuoting accepted, ?_⟩
    obtain ⟨state, ran, outside⟩ := validateReportQuoting_eq_ok_iff.mp accepted
    exact @exists_record_of_foldlM .start state [] value rfl ran outside
  · intro given
    obtain ⟨nulFree, record, texts, -, rfl, forms⟩ := given
    have fieldsNulFree : ∀ field ∈ record, '\x00' ∉ field := by
      intro field member nul
      exact nulFree (Csv.mem_forms forms (by decide) member nul)
    exact validateReportQuoting_eq_ok_iff.mpr (foldlM_forms forms fieldsNulFree)

/-! ## What is read -/

/-- The state of the reader when the quoting check is in a state. -/
def QuotingState.reader : QuotingState → Csv.ReadState
  | .start => .start
  | .unquoted => .unquoted
  | .quoted => .quoted
  | .closed => .closed

/-- Where the quoting check goes on, the reader does, too. -/
theorem scanFields_step {state after : QuotingState} {c : Char}
    (stepped : quotingCharStep state c = .ok after) (field rest : Text) :
    ∃ next, (Csv.scanFields '|' state.reader field (c :: rest)).2 =
      (Csv.scanFields '|' after.reader next rest).2 := by
  cases (quotingCharStep_eq_ok_iff.mp stepped).2 with
  | opens => exact ⟨field, by simp [QuotingState.reader, Csv.scanFields]⟩
  | separates outside =>
      refine ⟨[], ?_⟩
      cases state with
      | quoted => exact absurd rfl outside
      | start => simp [QuotingState.reader, Csv.scanFields]
      | unquoted => simp [QuotingState.reader, Csv.scanFields]
      | closed => simp [QuotingState.reader, Csv.scanFields]
  | plain outside isPlain =>
      refine ⟨field ++ [c], ?_⟩
      simp only [Csv.isSpecial, Bool.or_eq_false_iff, beq_eq_false_iff_ne] at isPlain
      cases outside with
      | inl isStart => simp [isStart, isPlain, QuotingState.reader, Csv.scanFields, Csv.isLineEnd]
      | inr isUnquoted =>
          simp [isUnquoted, isPlain, QuotingState.reader, Csv.scanFields, Csv.isLineEnd]
  | inside notQuote =>
      exact ⟨field ++ [c], by simp [notQuote, QuotingState.reader, Csv.scanFields]⟩
  | closes => exact ⟨field, by simp [QuotingState.reader, Csv.scanFields]⟩
  | doubles => exact ⟨field ++ ['"'], by simp [QuotingState.reader, Csv.scanFields]⟩

theorem scanFields_snd {state after : QuotingState} {text : Text}
    (ran : text.foldlM quotingCharStep state = .ok after) (field : Text) :
    (Csv.scanFields '|' state.reader field text).2 = [] := by
  induction text generalizing state field with
  | nil => cases state <;> rfl
  | cons c text ih =>
      rw [List.foldlM_cons, bind_eq_ok_iff] at ran
      obtain ⟨middle, stepped, ran⟩ := ran
      obtain ⟨next, same⟩ := scanFields_step stepped field text
      rw [same]
      exact ih ran next

/-- The first record of an accepted text is the whole text. -/
theorem scanRecord?_of_accepted {value : Text} {record : List Text}
    (accepted : validateReportQuoting value = .ok ())
    (read : Csv.readRecord? '|' value = some record) :
    Csv.scanRecord? '|' value = some (record, []) := by
  rw [← Csv.scanRecord?_fst, Option.map_eq_some_iff] at read
  obtain ⟨⟨fields, behind⟩, scanned, rfl⟩ := read
  obtain ⟨state, ran, -⟩ := validateReportQuoting_eq_ok_iff.mp accepted
  have whole : value.dropWhile Csv.isLineEnd = value := by
    cases value with
    | nil => rfl
    | cons c value =>
        rw [List.foldlM_cons, bind_eq_ok_iff] at ran
        obtain ⟨middle, stepped, -⟩ := ran
        apply List.dropWhile_cons_of_neg
        intro lineEnd
        simp only [Csv.isLineEnd, Bool.or_eq_true, beq_iff_eq] at lineEnd
        cases lineEnd with
        | inl isReturn =>
            subst isReturn
            cases stepped
        | inr isFeed =>
            subst isFeed
            cases stepped
  have behindNothing : behind = [] := by
    unfold Csv.scanRecord? at scanned
    rw [whole] at scanned
    split at scanned
    · cases scanned
    · have nothing := scanFields_snd ran []
      rw [QuotingState.reader, Option.some.inj scanned] at nothing
      exact nothing
  rw [scanned, behindNothing]

/-! ## Fields of a report -/

/-- The fields of a report that have names of their own. -/
def ProvisioningReport.standardFields (report : ProvisioningReport) : List (Text × Text) :=
  [("result".toList, report.result.asStr), ("agent".toList, report.agent),
    ("vm_id".toList, report.vmId), ("timestamp".toList, report.timestamp),
    ("pps_type".toList, report.ppsType.asStr)] ++
  report.reason.toList.map ("reason".toList, ·) ++
  report.documentationUrl.toList.map ("documentation_url".toList, ·)

/-- The fields in the order of some names, and then the others. -/
theorem perm_by_names {names : List Text} (different : names.Nodup) (fields : List (Text × Text)) :
    (names.flatMap (fun name => (valuesOf name fields).map (name, ·)) ++
      fields.filter fun field => !names.contains field.1).Perm fields := by
  induction names generalizing fields with
  | nil => simp
  | cons name names ih =>
      obtain ⟨absent, others⟩ := List.nodup_cons.mp different
      have named : (valuesOf name fields).map (name, ·) = fields.filter (·.1 == name) := by
        unfold valuesOf
        rw [List.map_map]
        conv => rhs; rw [← List.map_id (fields.filter _)]
        apply List.map_congr_left
        intro field member
        rw [List.mem_filter, beq_iff_eq] at member
        exact Prod.ext member.2.symm rfl
      have sameValues : names.flatMap (fun other => (valuesOf other fields).map (other, ·)) =
          names.flatMap (fun other => (valuesOf other (without name fields)).map (other, ·)) := by
        apply List.flatMap_congr
        intro other member
        have unlike : other ≠ name := fun same => absent (same ▸ member)
        rw [valuesOf_without unlike]
      have sameRest : (fields.filter fun field => !(name :: names).contains field.1) =
          (without name fields).filter fun field => !names.contains field.1 := by
        rw [without, List.filter_filter]
        apply List.filter_congr
        intro field _
        grind
      rw [List.flatMap_cons, List.append_assoc, named, sameValues, sameRest]
      exact ((ih others (without name fields)).append_left _).trans
        (List.filter_append_perm (·.1 == name) fields)

theorem Describes.flatMap_standardNames {fields : List (Text × Text)} {report : ProvisioningReport}
    (describes : Describes fields report) :
    (standardNames report.result).flatMap
      (fun name => (valuesOf name fields).map (name, ·)) = report.standardFields := by
  have failure := describes.failure
  unfold DescribesFailure at failure
  unfold ProvisioningReport.standardFields
  cases result : report.result with
  | success =>
      simp only [result] at failure
      have told := describes.result
      rw [result] at told
      simp only [standardNames, List.flatMap_cons, List.flatMap_nil, told, describes.agent,
        describes.vmId, describes.timestamp, describes.ppsType, failure.1, failure.2]
      rfl
  | error =>
      simp only [result] at failure
      have told := describes.result
      rw [result] at told
      simp only [standardNames, List.flatMap_cons, List.flatMap_nil, told, describes.agent,
        describes.vmId, describes.timestamp, describes.ppsType, failure.2.1, failure.2.2,
        List.append_nil]
      rfl

theorem standardNames_nodup (result : ReportResult) : (standardNames result).Nodup := by
  cases result <;> decide

/-- The fields that describe a report are its standard fields and its extra ones. -/
theorem Describes.perm {fields : List (Text × Text)} {report : ProvisioningReport}
    (describes : Describes fields report) :
    (report.standardFields ++ report.extra).Perm fields := by
  have ordered := perm_by_names (standardNames_nodup report.result) fields
  rw [describes.flatMap_standardNames, ← describes.extra] at ordered
  exact ordered

/-! ## Stored texts -/

theorem head?_stripLineEnd {value : Text} {c : Char} (notFirst : value.head? ≠ some c) :
    (stripLineEnd value).head? ≠ some c := by
  intro first
  apply notFirst
  cases stripLineEnd_cases value with
  | inl same =>
      rw [same]
      exact first
  | inr cut =>
      cases cut with
      | inl fed =>
          rw [fed, List.head?_append, first]
          rfl
      | inr returned =>
          rw [returned, List.head?_append, first]
          rfl

/-- The reader reads a quoted record as its fields. -/
theorem IsQuotedRecord.eq_of_readRecord? {text : Text} {record fields : List Text}
    (isRecord : IsQuotedRecord text record) (read : Csv.readRecord? '|' text = some fields) :
    record = fields := by
  obtain ⟨texts, given, rfl, forms⟩ := isRecord
  have notBlank : texts ≠ [[]] := by
    intro blank
    rw [blank] at read
    cases read
  have recordGiven : record ≠ [] := by
    intro none
    rw [none] at forms
    cases forms
    exact given rfl
  rw [Csv.readRecord?_forms (by decide) (by decide) recordGiven notBlank forms] at read
  exact Option.some.inj read

/-- The quoting check accepts exactly the texts of the grammar, and all of an accepted
report is in its fields. -/
theorem report_grammar_is_strict {crates : Crates} (csv : crates.CsvReader) (value : Text)
    (noByteOrderMark : value.head? ≠ some '\uFEFF') :
    (validateReportQuoting value = .ok () ↔
      '\x00' ∉ value ∧ ∃ record, IsQuotedRecord value record) ∧
    ∀ report, ProvisioningReport.fromStr crates value = .ok report →
      (value = stripLineEnd value ∨ value = stripLineEnd value ++ "\n".toList ∨
        value = stripLineEnd value ++ "\r\n".toList) ∧
      ∃ fields,
        crates.csvFirstRecord (stripLineEnd value) = some (some (fields.map fieldText)) ∧
        Csv.scanRecord? '|' (stripLineEnd value) = some (fields.map fieldText, []) ∧
        IsQuotedRecord (stripLineEnd value) (fields.map fieldText) ∧
        (∀ field ∈ fields, IsFieldName field.1) ∧
        (report.standardFields ++ report.extra).Perm fields := by
  refine ⟨validateReportQuoting_iff_record, ?_⟩
  intro report parsed
  obtain ⟨quoting, fields, read, named, describes, -⟩ := fromStr_eq_ok_iff.mp parsed
  have automaton : Csv.readRecord? '|' (stripLineEnd value) = some (fields.map fieldText) := by
    have follows := csv.follows _ (head?_stripLineEnd noByteOrderMark)
    rw [read] at follows
    obtain ⟨record, found, same⟩ := Option.map_eq_some_iff.mp follows.symm
    rw [found, Option.some.inj same]
  obtain ⟨-, record, isRecord⟩ := validateReportQuoting_iff_record.mp quoting
  rw [isRecord.eq_of_readRecord? automaton] at isRecord
  exact ⟨stripLineEnd_cases value, fields, read, scanRecord?_of_accepted quoting automaton,
    isRecord, named, describes.perm⟩

/-- A stored failure with an extra field, a quoted reason and a line end behind it. -/
def quotedReport : Text :=
  ("\"reason=a \"\"b\"\"|c\"|result=error|agent=a|vm_id=|k==|pps_type=None|" ++
    "timestamp=2026-06-17T00:00:00Z\r\n").toList

theorem report_grammar_is_strict_quoted :
    (∃ record, IsQuotedRecord (stripLineEnd quotedReport) record) ∧
    ∃ report, ProvisioningReport.fromStr ReferenceCrates.withCsv quotedReport = .ok report ∧
      ∃ fields, Csv.scanRecord? '|' (stripLineEnd quotedReport) = some (fields.map fieldText, []) ∧
        (report.standardFields ++ report.extra).Perm fields := by
  have accepted :
      (ProvisioningReport.fromStr ReferenceCrates.withCsv quotedReport).toOption.isSome = true := by
    decide +kernel
  obtain ⟨-, complete⟩ := report_grammar_is_strict ReferenceCrates.withCsv_csvReader quotedReport
    (by decide)
  cases parsed : ProvisioningReport.fromStr ReferenceCrates.withCsv quotedReport with
  | error error =>
      rw [parsed] at accepted
      cases accepted
  | ok report =>
      obtain ⟨-, fields, -, scanned, isRecord, -, perm⟩ := complete report parsed
      exact ⟨⟨_, isRecord⟩, report, rfl, fields, scanned, perm⟩

end AzureInit.Diagnostics
