import AzureInit.Foundation.DelimitedText
import AzureInit.Foundation.DecimalText
import AzureInit.Diagnostics.Crates

/-! Concrete external functions that meet the documented behaviour: times in the
printed form of the writer, hyphenated UUIDs, and stored streams in place of
compressed ones. -/

set_option autoImplicit false

namespace AzureInit.Diagnostics.ReferenceCrates

open Foundation

/-! ## Times -/

def yearText (year : Int) : Text :=
  if 0 ≤ year ∧ year ≤ 9999 then Decimal.paddedDigits 4 year.toNat
  else (if year < 0 then '-' else '+') :: Decimal.paddedDigits 4 year.natAbs

/-- The second and its nanoseconds as printed; a leap second counts as one more. -/
def printedSecond (instant : DateTime) : Nat × Nat :=
  if instant.isLeapSecond then (instant.second + 1, instant.nanosecond - nanosPerSecond)
  else (instant.second, instant.nanosecond)

def secondText (instant : DateTime) (format : SecondsFormat) : Text :=
  let (second, nanosecond) := printedSecond instant
  Decimal.paddedDigits 2 second ++
    match format with
    | .secs => []
    | _ => '.' :: Decimal.paddedDigits format.fractionDigits (nanosecond / format.unit)

def dateText (instant : DateTime) : Text :=
  ['-'].intercalate [yearText instant.year, Decimal.paddedDigits 2 instant.month,
    Decimal.paddedDigits 2 instant.day]

def clockText (instant : DateTime) (format : SecondsFormat) : Text :=
  [':'].intercalate [Decimal.paddedDigits 2 instant.hour,
    Decimal.paddedDigits 2 instant.minute, secondText instant format]

def printTime (instant : DateTime) (format : SecondsFormat) : Text :=
  ['T'].intercalate [dateText instant, clockText instant format ++ ['Z']]

/-- The instant of calendar fields; a second of 60 is a leap second. -/
def makeTime (year : Int) (month day hour minute second nanosecond : Nat) : Option DateTime :=
  let leap := second == 60
  let second := if leap then 59 else second
  let nanosecond := if leap then nanosecond + nanosPerSecond else nanosecond
  if valid : (1 ≤ month ∧ month ≤ 12) ∧ (1 ≤ day ∧ day ≤ daysInMonth year month) ∧
      (hour < 24 ∧ minute < 60 ∧ second < 60) ∧ nanosecond < 2 * nanosPerSecond then
    some {
      year, month, day, hour, minute, second, nanosecond
      validMonth := valid.1
      validDay := valid.2.1
      validTime := valid.2.2.1
      validNanosecond := valid.2.2.2 }
  else none

/-- The whole second and the nanoseconds of a second with or without a fraction. -/
def readSecond (text : Text) : Nat × Nat :=
  match Delimited.splitOnce? '.' text with
  | none => (Decimal.digitsValue text, 0)
  | some (second, fraction) =>
      (Decimal.digitsValue second, Decimal.digitsValue fraction * 10 ^ (9 - fraction.length))

def readTime (text : Text) : Option DateTime :=
  match text.splitOn 'T' with
  | [date, time] =>
      match date.splitOn '-', time.dropLast.splitOn ':' with
      | [year, month, day], [hour, minute, second] =>
          makeTime (Decimal.digitsValue year) (Decimal.digitsValue month)
            (Decimal.digitsValue day) (Decimal.digitsValue hour)
            (Decimal.digitsValue minute) (readSecond second).1 (readSecond second).2
      | _, _ => none
  | _ => none

/-- Years are unsigned. -/
def parseTime (text : Text) : Option DateTime :=
  if text.head?.any Char.isDigit then readTime text else none

theorem not_mem_secondText {instant : DateTime} {format : SecondsFormat} {c : Char}
    (notDigit : c.isDigit = false) (notPoint : c ≠ '.') : c ∉ secondText instant format := by
  unfold secondText
  cases format <;>
    simp [Decimal.not_mem_paddedDigits notDigit, notPoint]

private theorem splitOnce?_point {left right : Text} (digits : '.' ∉ left) :
    Delimited.splitOnce? '.' (left ++ '.' :: right) = some (left, right) :=
  Delimited.splitOnce?_eq_some_iff.mpr ⟨rfl, digits⟩

theorem printedSecond_nanos (instant : DateTime) :
    (printedSecond instant).2 < nanosPerSecond := by
  have bound := instant.validNanosecond
  unfold printedSecond
  split
  · simp only
    omega
  · rename_i noLeap
    simpa [DateTime.isLeapSecond] using noLeap

theorem readSecond_secondText (instant : DateTime) (format : SecondsFormat) :
    readSecond (secondText instant format) =
      ((printedSecond instant).1, (printedSecond instant).2 / format.unit * format.unit) := by
  have nanos := printedSecond_nanos instant
  have fraction : ∀ width : Nat, 0 < width → width ≤ 9 →
      readSecond (Decimal.paddedDigits 2 (printedSecond instant).1 ++
        '.' :: Decimal.paddedDigits width ((printedSecond instant).2 / 10 ^ (9 - width))) =
        ((printedSecond instant).1,
          (printedSecond instant).2 / 10 ^ (9 - width) * 10 ^ (9 - width)) := by
    intro width positive few
    have fits := leadingDigits_lt few nanos
    unfold readSecond
    rw [splitOnce?_point (Decimal.not_mem_paddedDigits (by decide))]
    simp only [Decimal.digitsValue_paddedDigits, Decimal.length_paddedDigits positive fits]
  cases format with
  | secs =>
      have whole : Delimited.splitOnce? '.' (Decimal.paddedDigits 2 (printedSecond instant).1) =
          none := Delimited.splitOnce?_eq_none_iff.mpr (Decimal.not_mem_paddedDigits (by decide))
      have noNanos : (printedSecond instant).2 / SecondsFormat.secs.unit = 0 :=
        Nat.div_eq_of_lt nanos
      simp [secondText, readSecond, whole, noNanos]
  | millis => exact fraction 3 (by decide) (by decide)
  | micros => exact fraction 6 (by decide) (by decide)
  | nanos => exact fraction 9 (by decide) (by decide)

private theorem dateText_split {instant : DateTime} (fromYearZero : 0 ≤ instant.year)
    (fourDigitYear : instant.year ≤ 9999) :
    'T' ∉ dateText instant ∧
      (dateText instant).splitOn '-' = [Decimal.paddedDigits 4 instant.year.toNat,
        Decimal.paddedDigits 2 instant.month, Decimal.paddedDigits 2 instant.day] := by
  have year : yearText instant.year = Decimal.paddedDigits 4 instant.year.toNat :=
    if_pos ⟨fromYearZero, fourDigitYear⟩
  unfold dateText
  rw [year]
  constructor
  · apply Delimited.not_mem_intercalate (by decide)
    simp only [List.forall_mem_cons]
    exact ⟨Decimal.not_mem_paddedDigits (by decide), Decimal.not_mem_paddedDigits (by decide),
      Decimal.not_mem_paddedDigits (by decide), fun _ member => absurd member List.not_mem_nil⟩
  · apply List.splitOn_intercalate '-' ?_ (by simp)
    simp only [List.forall_mem_cons]
    exact ⟨Decimal.not_mem_paddedDigits (by decide), Decimal.not_mem_paddedDigits (by decide),
      Decimal.not_mem_paddedDigits (by decide), fun _ member => absurd member List.not_mem_nil⟩

private theorem clockText_split (instant : DateTime) (format : SecondsFormat) :
    'T' ∉ clockText instant format ∧
      (clockText instant format).splitOn ':' = [Decimal.paddedDigits 2 instant.hour,
        Decimal.paddedDigits 2 instant.minute, secondText instant format] := by
  unfold clockText
  constructor
  · apply Delimited.not_mem_intercalate (by decide)
    simp only [List.forall_mem_cons]
    exact ⟨Decimal.not_mem_paddedDigits (by decide), Decimal.not_mem_paddedDigits (by decide),
      not_mem_secondText (by decide) (by decide),
      fun _ member => absurd member List.not_mem_nil⟩
  · apply List.splitOn_intercalate ':' ?_ (by simp)
    simp only [List.forall_mem_cons]
    exact ⟨Decimal.not_mem_paddedDigits (by decide), Decimal.not_mem_paddedDigits (by decide),
      not_mem_secondText (by decide) (by decide),
      fun _ member => absurd member List.not_mem_nil⟩

theorem readTime_printTime (instant : DateTime) (format : SecondsFormat)
    (fromYearZero : 0 ≤ instant.year) (fourDigitYear : instant.year ≤ 9999) :
    readTime (printTime instant format) =
      makeTime instant.year instant.month instant.day instant.hour instant.minute
        (printedSecond instant).1
        ((printedSecond instant).2 / format.unit * format.unit) := by
  obtain ⟨dateNoT, dateFields⟩ := dateText_split fromYearZero fourDigitYear
  obtain ⟨clockNoT, clockFields⟩ := clockText_split instant format
  have parts : (printTime instant format).splitOn 'T' =
      [dateText instant, clockText instant format ++ ['Z']] := by
    apply List.splitOn_intercalate 'T' ?_ (by simp)
    simp only [List.forall_mem_cons, List.mem_append, not_or]
    exact ⟨dateNoT, ⟨clockNoT, by decide⟩, fun _ member => absurd member List.not_mem_nil⟩
  have sameYear : ((instant.year.toNat : Nat) : Int) = instant.year :=
    Int.toNat_of_nonneg fromYearZero
  unfold readTime
  rw [parts]
  simp only [List.dropLast_concat, dateFields, clockFields, Decimal.digitsValue_paddedDigits,
    readSecond_secondText, sameYear]

theorem head_printTime (instant : DateTime) (format : SecondsFormat) :
    (printTime instant format).head? = (yearText instant.year).head? := by
  have given : yearText instant.year ≠ [] := by
    unfold yearText
    split
    · exact Decimal.paddedDigits_ne_nil 4 _
    · simp
  unfold printTime dateText
  rw [List.intercalate_cons_cons, List.intercalate_cons_cons]
  cases year : yearText instant.year with
  | nil => exact absurd year given
  | cons first rest => rfl

theorem makeTime_of_noLeapSecond (instant : DateTime) (format : SecondsFormat)
    (noLeapSecond : instant.isLeapSecond = false) :
    makeTime instant.year instant.month instant.day instant.hour instant.minute
        (printedSecond instant).1
        ((printedSecond instant).2 / format.unit * format.unit) =
      some (instant.truncate format) := by
  have noLeap : (instant.second == 60) = false :=
    beq_eq_false_iff_ne.mpr (Nat.ne_of_lt instant.validTime.2.2)
  have printed : printedSecond instant = (instant.second, instant.nanosecond) := by
    simp [printedSecond, noLeapSecond]
  unfold makeTime
  rw [printed]
  simp only [noLeap, Bool.false_eq_true, ↓reduceIte]
  rw [dif_pos ⟨instant.validMonth, instant.validDay, instant.validTime,
    (instant.truncate format).validNanosecond⟩]
  rfl

theorem makeTime_of_leapSecond (instant : DateTime) (format : SecondsFormat)
    (leapSecond : instant.isLeapSecond = true) :
    (makeTime instant.year instant.month instant.day instant.hour instant.minute
      (printedSecond instant).1
      ((printedSecond instant).2 / format.unit * format.unit)).isSome := by
  have bounded := printedSecond_nanos instant
  have cutBounded := Nat.div_mul_le_self (printedSecond instant).2 format.unit
  have seconds : (printedSecond instant).1 = instant.second + 1 := by
    simp [printedSecond, leapSecond]
  obtain ⟨hour, minute, second⟩ := instant.validTime
  unfold makeTime
  rw [dif_pos]
  · rfl
  · refine ⟨instant.validMonth, instant.validDay, ⟨hour, minute, ?_⟩, ?_⟩
    · rw [seconds]
      split
      · decide
      · rename_i notSixty
        simp only [beq_iff_eq] at notSixty
        omega
    · split <;> omega

/-! ## Everything -/

def isHexDigit (c : Char) : Bool :=
  c.isDigit || ('a' ≤ c && c ≤ 'f') || ('A' ≤ c && c ≤ 'F')

/-- The hyphenated form of a UUID. -/
def isUuid (text : Text) : Bool :=
  let fields := text.splitOn '-'
  fields.map List.length == [8, 4, 4, 4, 12] && fields.all (·.all isHexDigit)

/-- One character for each byte, none of them a NUL. -/
def printBytes (bytes : List UInt8) : Text := bytes.map fun byte => Char.ofNat (byte.toNat + 256)

def readBytes (text : List UInt8) : Option (List UInt8) :=
  (Utf8.decode? text).map (·.map fun c => UInt8.ofNat (c.toNat - 256))

/-- Functions with the documented behaviour; reports, JSON values and numbers in
floating-point notation are all refused. -/
def reference : Crates where
  parseUuid := isUuid
  toRfc3339Opts := printTime
  parseFromRfc3339 := parseTime
  base64Encode := printBytes
  base64Decode := readBytes
  gzEncode := .ok
  zlibEncode := .ok
  gzDecode := fun bytes => some (bytes, [])
  zlibDecode := fun bytes => some (bytes, [])
  csvFirstRecord := fun _ => none
  jsonFromStr := fun _ => none
  parseF64 := fun _ => none
  tryFromSecsF64 := fun _ => none

theorem parseTime_printTime (instant : DateTime) (format : SecondsFormat)
    (fromYearZero : 0 ≤ instant.year) (fourDigitYear : instant.year ≤ 9999) :
    parseTime (printTime instant format) =
      makeTime instant.year instant.month instant.day instant.hour instant.minute
        (printedSecond instant).1
        ((printedSecond instant).2 / format.unit * format.unit) := by
  have unsigned : (printTime instant format).head?.any Char.isDigit = true := by
    rw [head_printTime, yearText, if_pos ⟨fromYearZero, fourDigitYear⟩]
    cases year : Decimal.paddedDigits 4 instant.year.toNat with
    | nil => exact absurd year (Decimal.paddedDigits_ne_nil _ _)
    | cons first rest =>
        have member : first ∈ Decimal.paddedDigits 4 instant.year.toNat := by simp [year]
        exact Decimal.isDigit_of_mem_paddedDigits member
  unfold parseTime
  rw [if_pos unsigned, readTime_printTime instant format fromYearZero fourDigitYear]

theorem reference_rfc3339 : reference.Rfc3339 where
  parse_format instant format fromYearZero fourDigitYear noLeapSecond := by
    rw [← makeTime_of_noLeapSecond instant format noLeapSecond]
    exact parseTime_printTime instant format fromYearZero fourDigitYear
  parse_leapSecond instant format fromYearZero fourDigitYear leapSecond := by
    have accepted := makeTime_of_leapSecond instant format leapSecond
    rw [← parseTime_printTime instant format fromYearZero fourDigitYear] at accepted
    exact accepted
  format_signed instant format expanded := by
    have notFour : ¬ (0 ≤ instant.year ∧ instant.year ≤ 9999) := by omega
    have printed : (reference.toRfc3339Opts instant format).head? =
        (yearText instant.year).head? := head_printTime instant format
    rw [printed, yearText, if_neg notFour, List.head?_cons]
    split <;> simp
  parse_signed text signed := by
    have refused : text.head?.any Char.isDigit = false := by
      simp only [List.mem_cons, List.not_mem_nil, or_false] at signed
      rcases signed with plus | minus
      · rw [plus]
        rfl
      · rw [minus]
        rfl
    have unread : reference.parseFromRfc3339 text = parseTime text := rfl
    rw [unread, parseTime, refused]
    rfl

private theorem toNat_printed (byte : UInt8) :
    (Char.ofNat (byte.toNat + 256)).toNat = byte.toNat + 256 := by
  have small : byte.toNat < 256 := byte.toNat_lt
  have valid : (byte.toNat + 256).isValidChar := Or.inl (by omega)
  rw [Char.ofNat, dif_pos valid]
  rfl

theorem reference_codecs : reference.Codecs where
  base64_decode_encode bytes := by
    have undone : (fun c => UInt8.ofNat (c.toNat - 256)) ∘
        (fun byte : UInt8 => Char.ofNat (byte.toNat + 256)) = id := by
      funext byte
      simp [toNat_printed]
    have decoded : readBytes (Utf8.encode (printBytes bytes)) = some bytes := by
      rw [readBytes, Utf8.decode?_encode, Option.map_some, printBytes, List.map_map, undone,
        List.map_id]
    exact decoded
  base64_nulFree bytes := by
    intro nul
    obtain ⟨byte, -, printed⟩ := List.mem_map.mp nul
    have value := toNat_printed byte
    rw [printed] at value
    exact absurd value (by simp)
  gz_decode_encode bytes compressed encoded := by
    cases encoded
    rfl
  zlib_decode_encode bytes compressed encoded := by
    cases encoded
    rfl

end AzureInit.Diagnostics.ReferenceCrates
