import AzureInit.Diagnostics.ReferenceCrates

/-! The form of printed times: which characters they have, how long they are, and what
becomes of leap seconds. -/

set_option autoImplicit false

namespace AzureInit.Diagnostics

open Foundation

/-! ## Printed times -/

/-- The range of chrono's years. -/
def IsRepresentable (instant : DateTime) : Prop :=
  -262143 ≤ instant.year ∧ instant.year ≤ 262142

/-- Four digits, or a sign and as many digits as it takes. -/
def yearWidth (year : Int) : Nat :=
  if 0 ≤ year ∧ year ≤ 9999 then 4 else 1 + max 4 (Decimal.digits year.natAbs).length

def fractionWidth : SecondsFormat → Nat
  | .secs => 0
  | format => 1 + format.fractionDigits

def timeMarks : List Char := ['+', '-', 'T', ':', '.', 'Z']

def IsTimeText (text : Text) : Prop := ∀ c ∈ text, c.isDigit = true ∨ c ∈ timeMarks

/-- A leap second at the end of a minute is printed as its second 60; one within a minute is
read back as the next second. -/
structure Crates.TimestampText (crates : Crates) : Prop where
  format_plain : ∀ (instant : DateTime) (format : SecondsFormat),
    IsTimeText (crates.toRfc3339Opts instant format)
  format_length : ∀ (instant : DateTime) (format : SecondsFormat),
    (crates.toRfc3339Opts instant format).length =
      yearWidth instant.year + 16 + fractionWidth format
  parse_minuteEnd : ∀ (instant : DateTime) (format : SecondsFormat),
    0 ≤ instant.year → instant.year ≤ 9999 → instant.isLeapSecond = true →
      instant.second = 59 →
      crates.parseFromRfc3339 (crates.toRfc3339Opts instant format) =
        some (instant.truncate format)
  parse_withinMinute : ∀ (instant : DateTime) (format : SecondsFormat),
    0 ≤ instant.year → instant.year ≤ 9999 → instant.isLeapSecond = true →
      instant.second ≠ 59 →
      ∃ next, crates.parseFromRfc3339 (crates.toRfc3339Opts instant format) = some next ∧
        next.second = instant.second + 1 ∧ next.isLeapSecond = false

/-! ## The reference functions -/

namespace ReferenceCrates

theorem length_secondText (instant : DateTime) (format : SecondsFormat) :
    (secondText instant format).length = 2 + fractionWidth format := by
  have bound := instant.validTime.2.2
  have printed : (printedSecond instant).1 < 10 ^ 2 := by
    unfold printedSecond
    split <;> simp only <;> omega
  have nanos := printedSecond_nanos instant
  have whole : (Decimal.paddedDigits 2 (printedSecond instant).1).length = 2 :=
    Decimal.length_paddedDigits (by decide) printed
  have fraction : ∀ width : Nat, 0 < width → width ≤ 9 →
      (Decimal.paddedDigits 2 (printedSecond instant).1 ++
        '.' :: Decimal.paddedDigits width ((printedSecond instant).2 / 10 ^ (9 - width))).length =
          2 + (1 + width) := by
    intro width positive few
    have fits : (printedSecond instant).2 / 10 ^ (9 - width) < 10 ^ width := by
      apply Nat.div_lt_of_lt_mul
      rw [← Nat.pow_add, Nat.sub_add_cancel few]
      exact nanos
    rw [List.length_append, List.length_cons, whole, Decimal.length_paddedDigits positive fits,
      Nat.add_comm width]
  cases format with
  | secs =>
      rw [← List.append_nil (Decimal.paddedDigits 2 (printedSecond instant).1)] at whole
      exact whole
  | millis => exact fraction 3 (by decide) (by decide)
  | micros => exact fraction 6 (by decide) (by decide)
  | nanos => exact fraction 9 (by decide) (by decide)

theorem length_yearText (year : Int) : (yearText year).length = yearWidth year := by
  unfold yearText yearWidth
  split
  · exact Decimal.length_paddedDigits (by decide) (by omega)
  · rw [List.length_cons, Nat.add_comm]
    simp only [Decimal.paddedDigits, List.leftpad, List.length_append, List.length_replicate]
    omega

theorem length_printTime (instant : DateTime) (format : SecondsFormat) :
    (printTime instant format).length = yearWidth instant.year + 16 + fractionWidth format := by
  have two : ∀ value : Nat, value < 100 → (Decimal.paddedDigits 2 value).length = 2 :=
    fun value fits => Decimal.length_paddedDigits (by decide) fits
  have month := instant.validMonth.2
  have day : instant.day ≤ 31 := by
    refine Nat.le_trans instant.validDay.2 ?_
    unfold daysInMonth
    split
    · split <;> decide
    · split <;> decide
  obtain ⟨hour, minute, -⟩ := instant.validTime
  unfold printTime dateText clockText
  simp only [List.intercalate_cons_cons, List.intercalate_singleton, List.length_append,
    List.length_cons, List.length_nil, length_yearText, two _ (Nat.lt_of_le_of_lt month (by decide)),
    two _ (Nat.lt_of_le_of_lt day (by decide)), two _ (Nat.lt_trans hour (by decide)),
    two _ (Nat.lt_trans minute (by decide)), length_secondText]
  omega

private theorem isTimeText_intercalate {separator : Char} {fields : List Text}
    (mark : separator ∈ timeMarks) (all : ∀ field ∈ fields, IsTimeText field) :
    IsTimeText ([separator].intercalate fields) := by
  induction fields with
  | nil =>
      intro c member
      cases member
  | cons field fields ih =>
      obtain ⟨first, others⟩ := List.forall_mem_cons.mp all
      cases fields with
      | nil =>
          rw [List.intercalate_singleton]
          exact first
      | cons next fields =>
          rw [List.intercalate_cons_cons, List.append_assoc]
          exact List.forall_mem_append.mpr ⟨first, List.forall_mem_cons.mpr ⟨.inr mark, ih others⟩⟩

private theorem isTimeText_paddedDigits (width value : Nat) :
    IsTimeText (Decimal.paddedDigits width value) :=
  fun _ member => .inl (Decimal.isDigit_of_mem_paddedDigits member)

private theorem isTimeText_secondText (instant : DateTime) (format : SecondsFormat) :
    IsTimeText (secondText instant format) := by
  intro c member
  by_cases digit : c.isDigit = true
  · exact .inl digit
  · right
    have point : c = '.' := by
      by_contra notPoint
      exact not_mem_secondText (Bool.not_eq_true _ ▸ digit) notPoint member
    rw [point]
    decide

private theorem isTimeText_yearText (year : Int) : IsTimeText (yearText year) := by
  unfold yearText
  split
  · exact isTimeText_paddedDigits _ _
  · refine List.forall_mem_cons.mpr ⟨.inr ?_, isTimeText_paddedDigits _ _⟩
    split <;> decide

theorem isTimeText_printTime (instant : DateTime) (format : SecondsFormat) :
    IsTimeText (printTime instant format) := by
  have digits := isTimeText_paddedDigits
  have date : IsTimeText (dateText instant) := by
    apply isTimeText_intercalate (by decide)
    simp only [List.forall_mem_cons]
    exact ⟨isTimeText_yearText _, digits _ _, digits _ _,
      fun _ member => absurd member List.not_mem_nil⟩
  have clock : IsTimeText (clockText instant format) := by
    apply isTimeText_intercalate (by decide)
    simp only [List.forall_mem_cons]
    exact ⟨digits _ _, digits _ _, isTimeText_secondText _ _,
      fun _ member => absurd member List.not_mem_nil⟩
  have zoned : IsTimeText (clockText instant format ++ ['Z']) :=
    List.forall_mem_append.mpr ⟨clock, List.forall_mem_singleton.mpr (.inr (by decide))⟩
  apply isTimeText_intercalate (by decide)
  simp only [List.forall_mem_cons]
  exact ⟨date, zoned, fun _ member => absurd member List.not_mem_nil⟩

theorem makeTime_of_minuteEnd (instant : DateTime) (format : SecondsFormat)
    (leapSecond : instant.isLeapSecond = true) (minuteEnd : instant.second = 59) :
    makeTime instant.year instant.month instant.day instant.hour instant.minute
        (printedSecond instant).1
        ((printedSecond instant).2 / format.unit * format.unit) =
      some (instant.truncate format) := by
  have printed : printedSecond instant = (60, instant.nanosecond - nanosPerSecond) := by
    simp [printedSecond, leapSecond, minuteEnd]
  have whole : format.unit ∣ nanosPerSecond := by
    cases format <;> decide
  have past : nanosPerSecond ≤ instant.nanosecond := of_decide_eq_true leapSecond
  have cut : (instant.nanosecond - nanosPerSecond) / format.unit * format.unit +
      nanosPerSecond = instant.nanosecond / format.unit * format.unit := by
    obtain ⟨count, eq⟩ := whole
    have positive := format.unit_pos
    have split : instant.nanosecond / format.unit =
        (instant.nanosecond - nanosPerSecond) / format.unit + count := by
      rw [← Nat.add_mul_div_left _ _ positive, ← eq, Nat.sub_add_cancel past]
    rw [split, Nat.add_mul, Nat.mul_comm count, ← eq]
  unfold makeTime
  rw [printed]
  simp only [beq_self_eq_true, ↓reduceIte, cut]
  rw [dif_pos ⟨instant.validMonth, instant.validDay,
    ⟨instant.validTime.1, instant.validTime.2.1, by decide⟩,
    (instant.truncate format).validNanosecond⟩]
  simp only [DateTime.truncate, minuteEnd]

theorem makeTime_withinMinute (instant : DateTime) (format : SecondsFormat)
    (leapSecond : instant.isLeapSecond = true) (withinMinute : instant.second ≠ 59) :
    ∃ next, makeTime instant.year instant.month instant.day instant.hour instant.minute
        (printedSecond instant).1
        ((printedSecond instant).2 / format.unit * format.unit) = some next ∧
      next.second = instant.second + 1 ∧ next.isLeapSecond = false := by
  have printed : printedSecond instant =
      (instant.second + 1, instant.nanosecond - nanosPerSecond) := by
    simp [printedSecond, leapSecond]
  have bounded := printedSecond_nanos instant
  rw [printed] at bounded ⊢
  have cutBounded := Nat.lt_of_le_of_lt
    (Nat.div_mul_le_self (instant.nanosecond - nanosPerSecond) format.unit) bounded
  obtain ⟨hour, minute, second⟩ := instant.validTime
  have notSixty : (instant.second + 1 == 60) = false := by
    rw [beq_eq_false_iff_ne]
    omega
  unfold makeTime
  simp only [notSixty, Bool.false_eq_true, ↓reduceIte]
  rw [dif_pos ⟨instant.validMonth, instant.validDay, ⟨hour, minute, by omega⟩, by omega⟩]
  refine ⟨_, rfl, rfl, ?_⟩
  simpa [DateTime.isLeapSecond] using cutBounded

theorem reference_timestampText : reference.TimestampText where
  format_plain := isTimeText_printTime
  format_length := length_printTime
  parse_minuteEnd instant format fromYearZero fourDigitYear leapSecond minuteEnd := by
    rw [← makeTime_of_minuteEnd instant format leapSecond minuteEnd]
    exact parseTime_printTime instant format fromYearZero fourDigitYear
  parse_withinMinute instant format fromYearZero fourDigitYear leapSecond withinMinute := by
    have made := makeTime_withinMinute instant format leapSecond withinMinute
    rw [← parseTime_printTime instant format fromYearZero fourDigitYear] at made
    exact made

end ReferenceCrates

end AzureInit.Diagnostics
