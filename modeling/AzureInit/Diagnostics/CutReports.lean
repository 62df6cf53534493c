import AzureInit.Diagnostics.ReportRoundTrip

/-! Fronts of encoded reports. A report is still parsed from a front that keeps its fields
through the timestamp, alone or in front of one more field. -/

set_option autoImplicit false

namespace AzureInit.Diagnostics

open Foundation

/-- The reader takes a field with or without quotes around it. -/
structure Crates.CsvForms (crates : Crates) : Prop where
  read_forms : ∀ (fields texts : List Text), IsRecord fields →
    List.Forall₂ (Csv.Form '|') fields texts →
      crates.csvFirstRecord (['|'].intercalate texts) = some (some fields)

theorem ReferenceCrates.withCsv_csvForms : ReferenceCrates.withCsv.CsvForms where
  read_forms fields texts isRecord forms := by
    have notBlank : texts ≠ [[]] := by
      rintro rfl
      cases forms with
      | cons form none =>
          cases none
          cases form
          exact isRecord.notBlank rfl
    have read := Csv.readRecord?_forms (by decide) (by decide) isRecord.given notBlank forms
    exact congrArg (Option.map some) read

/-! ## Line ends -/

theorem exists_of_foldlM_front {state after : QuotingState} {text front : Text}
    (isFront : front <+: text) (ran : text.foldlM quotingCharStep state = .ok after) :
    ∃ middle, front.foldlM quotingCharStep state = .ok middle := by
  obtain ⟨behind, rfl⟩ := isFront
  rw [List.foldlM_append, Fallible.bind_eq_ok_iff] at ran
  obtain ⟨middle, ranFront, -⟩ := ran
  exact ⟨middle, ranFront⟩

/-- No front of an accepted text is cut at a line end outside quotes. -/
theorem stripLineEnd_of_front {text front : Text} (isFront : front <+: text)
    (accepted : validateReportQuoting text = .ok ())
    (frontAccepted : validateReportQuoting (stripLineEnd front) = .ok ()) :
    stripLineEnd front = front := by
  rcases stripLineEnd_cases front with same | stripped
  · exact same.symm
  · obtain ⟨c, rest, isLineEnd, joined⟩ : ∃ c rest, (c = '\r' ∨ c = '\n') ∧
        front = stripLineEnd front ++ c :: rest := by
      cases stripped with
      | inl fed => exact ⟨'\n', [], .inr rfl, fed⟩
      | inr returned => exact ⟨'\r', ['\n'], .inl rfl, returned⟩
    obtain ⟨last, ran, -⟩ := validateReportQuoting_eq_ok_iff.mp accepted
    obtain ⟨middle, ranFront⟩ := exists_of_foldlM_front isFront ran
    obtain ⟨state, ranStripped, closed⟩ := validateReportQuoting_eq_ok_iff.mp frontAccepted
    rw [joined, List.foldlM_append, ranStripped] at ranFront
    have refused : (c :: rest).foldlM quotingCharStep state = .error .malformed := by
      rw [List.foldlM_cons]
      cases state with
      | quoted => exact absurd rfl closed
      | start => rcases isLineEnd with rfl | rfl <;> rfl
      | unquoted => rcases isLineEnd with rfl | rfl <;> rfl
      | closed => rcases isLineEnd with rfl | rfl <;> rfl
    have contradiction : (c :: rest).foldlM quotingCharStep state = .ok middle := ranFront
    rw [refused] at contradiction
    cases contradiction

/-! ## The fields of a front -/

theorem fieldText_injective {left right : Text × Text} (leftName : IsFieldName left.1)
    (rightName : IsFieldName right.1) (same : fieldText left = fieldText right) :
    left = right := by
  have first := splitReportField_eq_ok_iff.mpr ⟨rfl, leftName⟩
  have second := splitReportField_eq_ok_iff.mpr ⟨rfl, rightName⟩
  rw [same, second] at first
  exact (Except.ok.inj first).symm

/-- A field that is a front of another has its name and a front of its value. -/
theorem field_of_front {field other : Text × Text} (fieldName : IsFieldName field.1)
    (otherName : IsFieldName other.1) (isFront : fieldText field <+: fieldText other) :
    field.1 = other.1 ∧ field.2 <+: other.2 := by
  obtain ⟨behind, joined⟩ := isFront
  have longer : fieldText (field.1, field.2 ++ behind) = fieldText other := by
    rw [← joined]
    simp [fieldText]
  have same := @fieldText_injective (field.1, field.2 ++ behind) other fieldName otherName longer
  subst same
  exact ⟨rfl, List.prefix_append _ _⟩

theorem fields_of_map_fieldText {fields whole : List (Text × Text)} {text : Text}
    (named : ∀ field ∈ fields, IsFieldName field.1) (wholeNamed : ∀ field ∈ whole, IsFieldName field.1)
    (texts : fields.map fieldText = whole.map fieldText ++ [text]) :
    ∃ field, fields = whole ++ [field] ∧ fieldText field = text ∧ IsFieldName field.1 := by
  induction whole generalizing fields with
  | nil =>
      obtain ⟨field, rfl, same⟩ := List.map_eq_singleton_iff.mp texts
      exact ⟨field, rfl, same, named field (List.mem_singleton_self _)⟩
  | cons first whole ih =>
      cases fields with
      | nil => cases texts
      | cons one fields =>
          obtain ⟨oneName, othersNamed⟩ := List.forall_mem_cons.mp named
          obtain ⟨firstName, wholeOthers⟩ := List.forall_mem_cons.mp wholeNamed
          obtain ⟨here, rest⟩ := List.cons.inj texts
          obtain ⟨field, rfl, same, fieldName⟩ := ih othersNamed wholeOthers rest
          refine ⟨field, ?_, same, fieldName⟩
          rw [fieldText_injective oneName firstName here]
          rfl

section Front

variable {crates : Crates} {base report : ProvisioningReport} {last : Option (Text × Text)}
  {front : Text}

theorem fields_eq_cons (base : ProvisioningReport) :
    base.fields = ("result".toList, base.result.asStr) :: base.fields.tail :=
  rfl

/-- A front with a pipe holds some fields of the report whole, the result among them, and
a front of the next one. -/
theorem exists_cut_of_front
    (isFront : front <+: Csv.line '|' ((base.fields ++ last.toList).map fieldText))
    (pipe : '|' ∈ front) :
    ∃ whole other rest cut, base.fields ++ last.toList =
        ("result".toList, base.result.asStr) :: whole ++ other :: rest ∧
      ("result".toList, base.result.asStr) :: whole <+: base.fields ∧
      cut <+: Csv.writeField '|' (fieldText other) ∧
      front = ['|'].intercalate
        ((("result".toList, base.result.asStr) :: whole).map
          (Csv.writeField '|' ∘ fieldText) ++ [cut]) := by
  unfold Csv.line at isFront
  obtain ⟨wholeTexts, otherText, restTexts, cut, split, isCut, rfl⟩ :=
    Csv.front_intercalate (by simp [ProvisioningReport.fields]) isFront
  rw [List.map_map] at split
  obtain ⟨whole, behind, allFields, rfl, tail⟩ := List.map_eq_append_iff.mp split
  obtain ⟨other, rest, rfl, rfl, rfl⟩ := List.map_eq_cons_iff.mp tail
  have isWhole : whole <+: base.fields := by
    have inAll : whole <+: base.fields ++ last.toList := ⟨other :: rest, allFields.symm⟩
    apply List.prefix_of_prefix_length_le inAll (List.prefix_append _ _)
    have lengths := congrArg List.length allFields
    have short : last.toList.length ≤ 1 := by cases last <;> simp
    simp only [List.length_append, List.length_cons] at lengths
    omega
  cases whole with
  | nil =>
      rw [fields_eq_cons, List.cons_append] at allFields
      obtain rfl := (List.cons.inj allFields).1
      rw [List.map_nil, List.nil_append, List.intercalate_singleton] at pipe
      have inField := isCut.subset pipe
      cases outcome : base.result <;> rw [outcome] at inField <;> exact absurd inField (by decide)
  | cons first whole =>
      have isFirst := isWhole
      rw [fields_eq_cons, List.cons_prefix_cons] at isFirst
      obtain ⟨rfl, -⟩ := isFirst
      exact ⟨whole, other, rest, cut, allFields, isWhole, isCut, rfl⟩

/-- How a front of a record is read: whole fields, and a front of the next one. -/
theorem fields_of_parsed_front (reading : crates.CsvForms) (encodable : base.Encodable)
    (nulFree : ∀ field ∈ base.fields ++ last.toList, '\x00' ∉ fieldText field)
    (isFront : front <+: Csv.line '|' ((base.fields ++ last.toList).map fieldText))
    (pipe : '|' ∈ front) (parsed : ProvisioningReport.fromStr crates front = .ok report) :
    ∃ whole other rest text field,
      base.fields ++ last.toList = whole ++ other :: rest ∧ whole ≠ [] ∧
      front = Csv.line '|' (whole.map fieldText) ++ '|' :: text ∧
      text <+: Csv.writeField '|' (fieldText other) ∧
      Csv.Form '|' (fieldText field) text ∧ IsFieldName field.1 ∧
      fieldText field <+: fieldText other ∧ Describes (whole ++ [field]) report ∧
      (crates.parseFromRfc3339 report.timestamp).isSome := by
  obtain ⟨quoting, fields, read, named, describes, timestamp⟩ := fromStr_eq_ok_iff.mp parsed
  have texts : ∀ text ∈ (base.fields ++ last.toList).map fieldText, '\x00' ∉ text := by
    intro text member
    obtain ⟨field, inFields, rfl⟩ := List.mem_map.mp member
    exact nulFree field inFields
  have same := stripLineEnd_of_front isFront (validateReportQuoting_line texts) quoting
  rw [same] at quoting read
  obtain ⟨whole, other, rest, cut, allFields, isWhole, isCut, rfl⟩ :=
    exists_cut_of_front isFront pipe
  have wholeNamed : ∀ field ∈ ("result".toList, base.result.asStr) :: whole,
      IsFieldName field.1 := fun field member =>
    ProvisioningReport.isFieldName_of_mem_fields encodable.named (isWhole.subset member)
  have wholeNulFree : ∀ text ∈ (("result".toList, base.result.asStr) :: whole).map fieldText,
      '\x00' ∉ text := by
    intro text member
    obtain ⟨field, inWhole, rfl⟩ := List.mem_map.mp member
    exact nulFree field (List.mem_append_left _ (isWhole.subset inWhole))
  have lines := Csv.line_forms '|' ((("result".toList, base.result.asStr) :: whole).map fieldText)
  rw [List.map_map] at lines
  obtain ⟨state, ran, closed⟩ := validateReportQuoting_eq_ok_iff.mp quoting
  rw [foldlM_concat lines wholeNulFree] at ran
  obtain ⟨kept, isKept, form⟩ := form_of_accepted_front isCut ran closed
  have isRecord : IsRecord
      ((("result".toList, base.result.asStr) :: whole).map fieldText ++ [kept]) := by
    refine ⟨by simp, by simp, ?_⟩
    have first : (((("result".toList, base.result.asStr) :: whole).map fieldText ++
        [kept]).head?.bind List.head?) = some 'r' := rfl
    rw [first]
    decide
  have readBack := reading.read_forms _ _ isRecord (List.rel_append lines (.cons form .nil))
  rw [read] at readBack
  obtain ⟨field, rfl, rfl, fieldName⟩ := fields_of_map_fieldText named wholeNamed
    (Option.some.inj (Option.some.inj readBack))
  refine ⟨_, other, rest, cut, field, allFields, List.cons_ne_nil _ _, ?_, isCut, form,
    fieldName, isKept, describes, timestamp⟩
  rw [Csv.intercalate_concat (by simp), Csv.line, List.map_map]

/-- A kept front holds the fields of the report whole, and at most one field behind them,
whose name is free. -/
def KeepsFields (base : ProvisioningReport) (front : Text) : Prop :=
  front = Csv.line '|' (base.fields.map fieldText) ∨
    ∃ text field, front = Csv.line '|' (base.fields.map fieldText) ++ '|' :: text ∧
      Csv.Form '|' (fieldText field) text ∧ IsFieldName field.1 ∧
      field.1 ∉ standardNames .success

/-- The timestamp stands behind all other fields. -/
def EndsInTimestamp (base : ProvisioningReport) : Prop :=
  ∃ others, base.fields = others ++ [("timestamp".toList, base.timestamp)]

theorem noTimestamp_of_ends {others : List (Text × Text)} (encodable : base.Encodable)
    (ends : base.fields = others ++ [("timestamp".toList, base.timestamp)]) :
    valuesOf "timestamp".toList others = [] := by
  have once := (ProvisioningReport.describes_fields encodable).timestamp
  have own : valuesOf "timestamp".toList [("timestamp".toList, base.timestamp)] =
      [base.timestamp] := by simp [valuesOf]
  rw [ends, valuesOf_append, own] at once
  exact List.append_left_eq_self.mp once

/-- A name that a report has already is not that of a field behind it. -/
theorem free_of_describes {field : Text × Text} (baseDescribes : Describes base.fields base)
    (describes : Describes (base.fields ++ [field]) report) :
    field.1 ∉ standardNames .success := by
  have once : ∀ name value other, valuesOf name base.fields = [value] →
      valuesOf name (base.fields ++ [field]) = [other] → field.1 ≠ name := by
    rintro name value other own both rfl
    have again : valuesOf field.1 [field] = [field.2] := by simp [valuesOf]
    rw [valuesOf_append, own, again] at both
    cases both
  simp only [standardNames, List.mem_cons, List.not_mem_nil, or_false, not_or]
  exact ⟨once _ _ _ baseDescribes.result describes.result,
    once _ _ _ baseDescribes.agent describes.agent,
    once _ _ _ baseDescribes.vmId describes.vmId,
    once _ _ _ baseDescribes.timestamp describes.timestamp,
    once _ _ _ baseDescribes.ppsType describes.ppsType⟩

/-- A field of the report that is cut and read is its timestamp, and is read whole. -/
theorem line_of_own_cut {kept behind : List (Text × Text)} {other field : Text × Text} {text : Text}
    (encodable : base.Encodable) (lastField : EndsInTimestamp base)
    (wholeTimestamp : ∀ cut, cut <+: base.timestamp → (crates.parseFromRfc3339 cut).isSome →
      cut = base.timestamp)
    (ownFields : kept ++ [other] ++ behind = base.fields) (given : kept ≠ [])
    (isCut : text <+: Csv.writeField '|' (fieldText other))
    (form : Csv.Form '|' (fieldText field) text) (fieldName : IsFieldName field.1)
    (isFieldFront : fieldText field <+: fieldText other)
    (describes : Describes (kept ++ [field]) report)
    (valid : (crates.parseFromRfc3339 report.timestamp).isSome) :
    Csv.line '|' (kept.map fieldText) ++ '|' :: text =
      Csv.line '|' (base.fields.map fieldText) := by
  obtain ⟨others, ends⟩ := lastField
  have noTimestamp := noTimestamp_of_ends encodable ends
  have otherName : IsFieldName other.1 := by
    apply ProvisioningReport.isFieldName_of_mem_fields encodable.named
    rw [← ownFields]
    simp
  obtain ⟨sameName, isValueFront⟩ := field_of_front fieldName otherName isFieldFront
  have timestamps := describes.timestamp
  rw [valuesOf_append] at timestamps
  cases List.eq_nil_or_concat behind with
  | inl isLast =>
      rw [isLast, List.append_nil, ends] at ownFields
      obtain ⟨rfl, isTimestamp⟩ := List.append_inj' ownFields rfl
      obtain rfl := List.singleton_inj.mp isTimestamp
      rw [noTimestamp, List.nil_append] at timestamps
      have value : field.2 = report.timestamp := by
        have member : report.timestamp ∈ valuesOf "timestamp".toList [field] := by
          rw [timestamps]
          exact List.mem_singleton_self _
        rw [ProvisioningReport.mem_valuesOf, List.mem_singleton] at member
        rw [← member]
      rw [← value] at valid
      have sameValue := wholeTimestamp _ isValueFront valid
      obtain rfl : field = ("timestamp".toList, base.timestamp) := Prod.ext sameName sameValue
      rw [Csv.eq_writeField_of_form form isCut, ends, Csv.line, Csv.line, List.map_append,
        List.map_append, List.map_singleton, List.map_singleton,
        Csv.intercalate_concat (by simpa using given)]
  | inr further =>
      obtain ⟨middle, final, rfl⟩ := further
      rw [List.concat_eq_append, ends, ← List.append_assoc] at ownFields
      obtain ⟨rfl, -⟩ := List.append_inj' ownFields rfl
      rw [valuesOf_append, valuesOf_append] at noTimestamp
      simp only [List.append_eq_nil_iff] at noTimestamp
      have absent : valuesOf "timestamp".toList [field] = [] := by
        rw [valuesOf_eq_nil_iff]
        intro one member
        rw [List.mem_singleton.mp member, sameName]
        exact valuesOf_eq_nil_iff.mp noTimestamp.1.2 other (List.mem_singleton_self _)
      rw [noTimestamp.1.1, absent] at timestamps
      cases timestamps

/-- A front that is parsed keeps the fields of the report. -/
theorem keepsFields_of_parsed_front (reading : crates.CsvForms) (encodable : base.Encodable)
    (nulFree : ∀ field ∈ base.fields ++ last.toList, '\x00' ∉ fieldText field)
    (lastField : EndsInTimestamp base)
    (wholeTimestamp : ∀ cut, cut <+: base.timestamp → (crates.parseFromRfc3339 cut).isSome →
      cut = base.timestamp)
    (isFront : front <+: Csv.line '|' ((base.fields ++ last.toList).map fieldText))
    (pipe : '|' ∈ front) (parsed : ProvisioningReport.fromStr crates front = .ok report) :
    KeepsFields base front := by
  obtain ⟨kept, other, rest, text, field, allFields, given, rfl, isCut, form, fieldName,
    isFieldFront, describes, valid⟩ :=
    fields_of_parsed_front reading encodable nulFree isFront pipe parsed
  by_cases own : kept.length < base.fields.length
  · -- The cut field is one of the report's own, so the timestamp is the last one kept.
    have inAll : kept ++ [other] <+: base.fields ++ last.toList := ⟨rest, by simp [allFields]⟩
    obtain ⟨behind, ownFields⟩ := List.prefix_of_prefix_length_le inAll
      (List.prefix_append _ _) (by simpa using own)
    exact .inl (line_of_own_cut encodable lastField wholeTimestamp ownFields given isCut form
      fieldName isFieldFront describes valid)
  · have lengths := congrArg List.length allFields
    have short : last.toList.length ≤ 1 := by cases last <;> simp
    simp only [List.length_append, List.length_cons] at lengths
    obtain ⟨rfl, -⟩ := List.append_inj allFields (by omega)
    right
    exact ⟨text, field, rfl, form, fieldName,
      free_of_describes (ProvisioningReport.describes_fields encodable) describes⟩

/-- Every text of a report's fields is parsed as the report. -/
theorem fromStr_forms (reading : crates.CsvForms) {texts : List Text}
    (encodable : report.Encodable) (nulFree : report.NulFree)
    (timestamp : (crates.parseFromRfc3339 report.timestamp).isSome)
    (forms : List.Forall₂ (Csv.Form '|') (report.fields.map fieldText) texts) :
    ProvisioningReport.fromStr crates (['|'].intercalate texts) = .ok report := by
  have whole : stripLineEnd (['|'].intercalate texts) = ['|'].intercalate texts :=
    stripLineEnd_of_getLast? (Csv.getLast?_forms (by decide) forms)
  have fieldsNulFree : ∀ text ∈ report.fields.map fieldText, '\x00' ∉ text := by
    intro text member
    obtain ⟨field, inFields, rfl⟩ := List.mem_map.mp member
    exact ProvisioningReport.nulFree_of_mem_fields nulFree inFields
  rw [fromStr_eq_ok_iff, whole]
  refine ⟨validateReportQuoting_eq_ok_iff.mpr (foldlM_forms forms fieldsNulFree), report.fields,
    reading.read_forms _ _ report.isRecord_fields forms, ?_, ?_, timestamp⟩
  · exact fun field member => ProvisioningReport.isFieldName_of_mem_fields encodable.named member
  · exact ProvisioningReport.describes_fields encodable

end Front

end AzureInit.Diagnostics
