import AzureInit.Diagnostics.ChunkLoss
import AzureInit.Diagnostics.TimestampText

/-! The timestamps that the writer's length limit admits and those that the reader's
grammar admits. -/

set_option autoImplicit false

namespace AzureInit.Diagnostics

open Foundation
open Kvp (PoolMode)

/-! ## What the writer accepts -/

section Printed

variable {crates : Crates} (timestampText : crates.TimestampText)

include timestampText

theorem Crates.TimestampText.not_mem {c : Char} (notDigit : c.isDigit = false)
    (notMark : c ∉ timeMarks) (instant : DateTime) (format : SecondsFormat) :
    c ∉ crates.toRfc3339Opts instant format := by
  intro member
  cases timestampText.format_plain instant format c member with
  | inl digit =>
      rw [digit] at notDigit
      cases notDigit
  | inr mark => exact notMark mark

theorem Crates.TimestampText.byteLength_format (instant : DateTime) (format : SecondsFormat) :
    Utf8.byteLength (crates.toRfc3339Opts instant format) =
      yearWidth instant.year + 16 + fractionWidth format := by
  rw [← timestampText.format_length]
  apply Utf8.byteLength_of_ascii
  intro c member
  cases timestampText.format_plain instant format c member with
  | inl digit => exact Decimal.toNat_lt_of_isDigit digit
  | inr mark =>
      have marks : timeMarks.all (·.toNat < 128) = true := by decide
      exact of_decide_eq_true (List.all_eq_true.mp marks c mark)

/-- The writer accepts a printed time by its length alone. -/
theorem Crates.TimestampText.validateField_iff (instant : DateTime) (format : SecondsFormat) :
    validateField "timestamp".toList (crates.toRfc3339Opts instant format) maxTimestampBytes =
        .ok () ↔
      yearWidth instant.year + fractionWidth format ≤ 14 := by
  have noBar := timestampText.not_mem (c := '|') (by decide) (by decide) instant format
  have noNul := timestampText.not_mem (c := '\x00') (by decide) (by decide) instant format
  have length := timestampText.format_length instant format
  have given : (crates.toRfc3339Opts instant format).isEmpty = false := by
    rw [List.isEmpty_eq_false_iff, ← List.length_pos_iff]
    omega
  have limit : maxTimestampBytes = 30 := rfl
  unfold validateField
  rw [given, if_neg (by decide), if_neg (by simpa using noBar), if_neg (by simpa using noNul),
    timestampText.byteLength_format, limit]
  split
  · rename_i long
    constructor
    · intro accepted
      cases accepted
    · intro short
      omega
  · rename_i short
    constructor
    · intro _
      omega
    · intro _
      rfl

end Printed

/-- Four digits fit at every precision, more digits at all but the finest. -/
theorem yearWidth_fits_iff {instant : DateTime} (representable : IsRepresentable instant)
    (precision : TimestampPrecision) :
    yearWidth instant.year + fractionWidth precision.secondsFormat ≤ 14 ↔
      instant.FourDigitYear ∨ precision ≠ .nanos := by
  unfold IsRepresentable at representable
  have digits : (Decimal.digits instant.year.natAbs).length ≤ 6 :=
    (Nat.length_toDigits_le_iff (by decide) (by decide)).mpr (by omega)
  unfold yearWidth DateTime.FourDigitYear
  by_cases fourDigits : 0 ≤ instant.year ∧ instant.year ≤ 9999
  · rw [if_pos fourDigits]
    cases precision <;>
      simp [TimestampPrecision.secondsFormat, fractionWidth, SecondsFormat.fractionDigits,
        fourDigits]
  · rw [if_neg fourDigits]
    cases precision <;>
      simp only [TimestampPrecision.secondsFormat, fractionWidth, SecondsFormat.fractionDigits,
        fourDigits, false_or, ne_eq, reduceCtorEq, not_false_eq_true, not_true_eq_false,
        iff_true, iff_false] <;>
      omega

/-! ## Diagnostics that only their timestamp can spoil -/

def DiagnosticWriter.prepare (writer : DiagnosticWriter) (crates : Crates)
    (diagnostic : Diagnostic) : Except Kvp.KvpError (List (Text × Text)) :=
  prepareRecords crates diagnostic writer.timestampPrecision writer.durationPrecision
    writer.maxNameBytes

/-- Every check of the writer but the one of the timestamp accepts the diagnostic. -/
structure OtherwiseValid (crates : Crates) (writer : DiagnosticWriter) (diagnostic : Diagnostic)
    (vmId value : Text) (records : List (Text × Text)) : Prop where
  agent : validateField "agent".toList diagnostic.key.agent maxAgentBytes = .ok ()
  vmIdGiven : diagnostic.key.vmId = some vmId
  vmIdValid : validateUuid crates "vm_id".toList vmId = .ok ()
  name : validateField "name".toList diagnostic.key.name writer.maxNameBytes = .ok ()
  eventId : validateUuid crates "event_id".toList diagnostic.key.eventId = .ok ()
  encoded : encodePayload crates diagnostic.payload diagnostic.key.encoding = .ok value
  framed : frameRecords (writtenBase crates diagnostic writer.timestampPrecision
    writer.durationPrecision vmId) value = .ok records

/-- What is written is read back with the truncated timestamp, and a timestamp of a year
that is not read is refused before anything is written. -/
structure WritesReadableTimestamp (crates : Crates) (order : HashOrder)
    (writer : DiagnosticWriter) (diagnostic : Diagnostic) : Prop where
  readBack : ∀ records, writer.prepare crates diagnostic = .ok records →
    ∃ decoded, decodeEntries crates order records = [.diagnostic decoded] ∧
      decoded.key.timestamp =
        diagnostic.key.timestamp.truncate writer.timestampPrecision.secondsFormat
  refused : ¬ diagnostic.key.timestamp.FourDigitYear →
    ∃ error, writer.prepare crates diagnostic = .error error ∧
      ∀ mode, writer.emit crates mode diagnostic = throw error

section Valid

variable {crates : Crates} {writer : DiagnosticWriter} {diagnostic : Diagnostic}
  {vmId value : Text} {records : List (Text × Text)}

theorem OtherwiseValid.prepare_eq
    (valid : OtherwiseValid crates writer diagnostic vmId value records) :
    writer.prepare crates diagnostic =
      (validateField "timestamp".toList (crates.toRfc3339Opts diagnostic.key.timestamp
        writer.timestampPrecision.secondsFormat) maxTimestampBytes).map fun _ => records := by
  have vmIdGiven : okOr diagnostic.key.vmId (Kvp.KvpError.emptyEventField "vm_id".toList) =
      .ok vmId := by
    rw [valid.vmIdGiven]
    rfl
  have framed := valid.framed
  unfold writtenBase at framed
  unfold DiagnosticWriter.prepare prepareRecords
  simp only [valid.agent, vmIdGiven, valid.vmIdValid, valid.name, valid.eventId, valid.encoded,
    bind, Except.bind]
  cases validateField "timestamp".toList (crates.toRfc3339Opts diagnostic.key.timestamp
      writer.timestampPrecision.secondsFormat) maxTimestampBytes with
  | error error => rfl
  | ok accepted => exact framed

theorem emit_of_refused {error : Kvp.KvpError}
    (refused : writer.prepare crates diagnostic = .error error) (mode : PoolMode) :
    writer.emit crates mode diagnostic = throw error := by
  unfold DiagnosticWriter.prepare at refused
  unfold DiagnosticWriter.emit
  rw [refused]
  rfl

theorem restored_timestamp (timestamp : DateTime) (cut : SecondsFormat)
    (payload : DiagnosticPayload) :
    (diagnostic.restored timestamp cut payload).key.timestamp = timestamp := by
  cases diagnostic <;> rfl

/-- The records are read back with the time that their text stands for. -/
theorem readBack_iff (codecs : crates.Codecs) (order : HashOrder) (expected : DateTime)
    (prepared : writer.prepare crates diagnostic = .ok records) :
    (∃ decoded, decodeEntries crates order records = [.diagnostic decoded] ∧
      decoded.key.timestamp = expected) ↔
    crates.parseFromRfc3339 (crates.toRfc3339Opts diagnostic.key.timestamp
      writer.timestampPrecision.secondsFormat) = some expected := by
  let emission : Emission crates :=
    { diagnostic
      timestampPrecision := writer.timestampPrecision
      durationPrecision := writer.durationPrecision
      maxNameBytes := writer.maxNameBytes
      records
      prepared }
  obtain ⟨payload, -, -, decoded⟩ := emission.decoded_eq codecs
  have entries := emission.decodeEntries_of_all order (List.Perm.refl records)
  rw [decoded] at entries
  show _ ↔ emission.readTimestamp = some expected
  cases read : emission.readTimestamp with
  | none =>
      rw [read] at entries
      simp only [okOr, Except.map] at entries
      rw [entries]
      constructor
      · intro isRead
        obtain ⟨restored, isDiagnostic, -⟩ := isRead
        cases records with
        | nil => cases isDiagnostic
        | cons record records => cases isDiagnostic
      · intro isRead
        cases isRead
  | some timestamp =>
      rw [read] at entries
      simp only [okOr, Except.map] at entries
      rw [entries]
      constructor
      · intro isRead
        obtain ⟨restored, isDiagnostic, rfl⟩ := isRead
        cases isDiagnostic
        rw [restored_timestamp]
      · intro isRead
        cases isRead
        exact ⟨_, rfl, restored_timestamp _ _ _⟩

end Valid

/-- The printed time of a year with four digits stands for the truncated time, if it is not
a leap second within a minute. -/
theorem parse_format_iff {crates : Crates} (rfc3339 : crates.Rfc3339)
    (timestampText : crates.TimestampText) {instant : DateTime}
    (fourDigits : instant.FourDigitYear) (format : SecondsFormat) :
    crates.parseFromRfc3339 (crates.toRfc3339Opts instant format) =
        some (instant.truncate format) ↔
      (instant.isLeapSecond = true → instant.second = 59) := by
  cases leapSecond : instant.isLeapSecond with
  | false =>
      rw [rfc3339.parse_format instant format fourDigits.1 fourDigits.2 leapSecond]
      simp
  | true =>
      by_cases minuteEnd : instant.second = 59
      · rw [timestampText.parse_minuteEnd instant format fourDigits.1 fourDigits.2 leapSecond
          minuteEnd]
        simp [minuteEnd]
      · obtain ⟨next, read, second, -⟩ := timestampText.parse_withinMinute instant format
          fourDigits.1 fourDigits.2 leapSecond minuteEnd
        rw [read]
        constructor
        · intro same
          have sameSecond := congrArg DateTime.second (Option.some.inj same)
          rw [second] at sameSecond
          exact absurd sameSecond (Nat.succ_ne_self _)
        · intro atEnd
          exact absurd (atEnd rfl) minuteEnd

section Agreement

variable {crates : Crates} {order : HashOrder} {writer : DiagnosticWriter}
  {diagnostic : Diagnostic} {vmId value : Text} {records : List (Text × Text)}

/-- A year of four digits is always written. -/
theorem readable_iff_of_fourDigitYear (rfc3339 : crates.Rfc3339)
    (timestampText : crates.TimestampText) (codecs : crates.Codecs)
    (representable : IsRepresentable diagnostic.key.timestamp)
    (valid : OtherwiseValid crates writer diagnostic vmId value records)
    (fourDigits : diagnostic.key.timestamp.FourDigitYear) :
    WritesReadableTimestamp crates order writer diagnostic ↔
      (diagnostic.key.timestamp.isLeapSecond = true → diagnostic.key.timestamp.second = 59) := by
  have accepted := (timestampText.validateField_iff diagnostic.key.timestamp
    writer.timestampPrecision.secondsFormat).mpr
      ((yearWidth_fits_iff representable writer.timestampPrecision).mpr (.inl fourDigits))
  have prepared : writer.prepare crates diagnostic = .ok records := by
    rw [valid.prepare_eq, accepted]
    rfl
  have read := (readBack_iff codecs order _ prepared).trans
    (parse_format_iff rfc3339 timestampText fourDigits writer.timestampPrecision.secondsFormat)
  constructor
  · intro readable
    exact read.mp (readable.readBack records prepared)
  · intro agrees
    refine ⟨?_, fun expanded => absurd fourDigits expanded⟩
    intro written isWritten
    rw [prepared] at isWritten
    cases isWritten
    exact read.mpr agrees

/-- Another year is refused at the finest precision, and written and not read at others. -/
theorem readable_iff_of_otherYear (timestampText : crates.TimestampText)
    (representable : IsRepresentable diagnostic.key.timestamp)
    (valid : OtherwiseValid crates writer diagnostic vmId value records)
    (otherYear : ¬ diagnostic.key.timestamp.FourDigitYear) :
    WritesReadableTimestamp crates order writer diagnostic ↔
      writer.timestampPrecision = .nanos := by
  have accepted := (timestampText.validateField_iff diagnostic.key.timestamp
    writer.timestampPrecision.secondsFormat).trans
      (yearWidth_fits_iff representable writer.timestampPrecision)
  have prepare := valid.prepare_eq
  constructor
  · intro readable
    by_contra coarse
    rw [accepted.mpr (.inr coarse)] at prepare
    obtain ⟨error, isRefused, -⟩ := readable.refused otherYear
    rw [prepare] at isRefused
    cases isRefused
  · intro fine
    cases checked : validateField "timestamp".toList (crates.toRfc3339Opts
        diagnostic.key.timestamp writer.timestampPrecision.secondsFormat) maxTimestampBytes with
    | ok done =>
        cases accepted.mp checked with
        | inl isFour => exact absurd isFour otherYear
        | inr coarse => exact absurd fine coarse
    | error error =>
        rw [checked] at prepare
        have isRefused : writer.prepare crates diagnostic = .error error := prepare
        refine ⟨?_, fun _ => ⟨error, isRefused, emit_of_refused isRefused⟩⟩
        intro written isWritten
        rw [isRefused] at isWritten
        cases isWritten

end Agreement

/-- The writer emits a timestamp that the reader accepts and reads back if and only if it
has a year of four digits and no leap second within a minute, or has another year and is
printed with nanoseconds. -/
theorem timestamps_agree_iff (crates : Crates) (rfc3339 : crates.Rfc3339)
    (timestampText : crates.TimestampText) (codecs : crates.Codecs) (order : HashOrder)
    (writer : DiagnosticWriter) (diagnostic : Diagnostic) (vmId value : Text)
    (records : List (Text × Text))
    (representable : IsRepresentable diagnostic.key.timestamp)
    (valid : OtherwiseValid crates writer diagnostic vmId value records) :
    WritesReadableTimestamp crates order writer diagnostic ↔
      (diagnostic.key.timestamp.FourDigitYear ∧
        (diagnostic.key.timestamp.isLeapSecond = true →
          diagnostic.key.timestamp.second = 59)) ∨
      (¬ diagnostic.key.timestamp.FourDigitYear ∧ writer.timestampPrecision = .nanos) := by
  by_cases fourDigits : diagnostic.key.timestamp.FourDigitYear
  · rw [readable_iff_of_fourDigitYear rfc3339 timestampText codecs representable valid fourDigits]
    constructor
    · intro agrees
      exact .inl ⟨fourDigits, agrees⟩
    · intro agrees
      cases agrees with
      | inl readable => exact readable.2
      | inr expanded => exact absurd fourDigits expanded.1
  · rw [readable_iff_of_otherYear timestampText representable valid fourDigits]
    constructor
    · intro fine
      exact .inr ⟨fourDigits, fine⟩
    · intro agrees
      cases agrees with
      | inl readable => exact absurd readable.1 fourDigits
      | inr fine => exact fine.2

/-! ## A time of the year 10000 -/

def millisWriter : DiagnosticWriter where
  agent := startKey.agent
  vmId := "3f2504e0-4f89-41d3-9a0c-0305e82c3301".toList
  maxNameBytes := defaultMaxNameBytes
  timestampPrecision := .millis
  durationPrecision := .micros

theorem startDiagnostic_otherwiseValid :
    OtherwiseValid ReferenceCrates.reference millisWriter startDiagnostic millisWriter.vmId
      "starting".toList startRecords where
  agent := by decide +kernel
  vmIdGiven := rfl
  vmIdValid := by decide +kernel
  name := by decide +kernel
  eventId := by decide +kernel
  encoded := by decide +kernel
  framed := by decide +kernel

theorem timestamps_agree_iff_start :
    WritesReadableTimestamp ReferenceCrates.reference unshuffled millisWriter startDiagnostic :=
  (timestamps_agree_iff ReferenceCrates.reference ReferenceCrates.reference_rfc3339
    ReferenceCrates.reference_timestampText ReferenceCrates.reference_codecs unshuffled
    millisWriter startDiagnostic millisWriter.vmId "starting".toList startRecords
    ⟨by decide, by decide⟩ startDiagnostic_otherwiseValid).mpr
      (.inl ⟨⟨by decide, by decide⟩, by decide⟩)

/-- The year 10000 is written with milliseconds, and is not read back. -/
theorem expandedTime_is_not_refused :
    IsRepresentable expandedTime ∧
      OtherwiseValid ReferenceCrates.reference millisWriter expandedEmission.diagnostic
        millisWriter.vmId "starting".toList expandedRecords ∧
      ∀ order : HashOrder, ¬ WritesReadableTimestamp ReferenceCrates.reference order millisWriter
        expandedEmission.diagnostic := by
  refine ⟨⟨by decide, by decide⟩, ?_, ?_⟩
  · exact
      { agent := by decide +kernel
        vmIdGiven := rfl
        vmIdValid := by decide +kernel
        name := by decide +kernel
        eventId := by decide +kernel
        encoded := by decide +kernel
        framed := by decide +kernel }
  · intro order readable
    obtain ⟨error, refused, -⟩ := readable.refused expandedEmission_not_fourDigitYear
    have prepared : millisWriter.prepare ReferenceCrates.reference expandedEmission.diagnostic =
        .ok expandedRecords := expandedEmission.prepared
    rw [prepared] at refused
    cases refused

end AzureInit.Diagnostics
