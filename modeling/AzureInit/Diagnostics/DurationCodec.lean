import Mathlib.Algebra.Order.Floor.Semifield
import AzureInit.Foundation.DecimalFraction
import AzureInit.Foundation.FallibleState
import AzureInit.Diagnostics.Reader
import AzureInit.Diagnostics.Writer

/-! Durations as numbers of seconds: which texts the decimal reader accepts, and what it
makes of the durations that the writer prints. -/

set_option autoImplicit false

namespace AzureInit.Diagnostics

open Foundation
open Foundation.Fallible
open Decimal (IsDecimal amount)

/-! ## Durations as numbers -/

/-- The length of a duration in seconds. -/
def durationSeconds (duration : Duration) : ℚ :=
  duration.secs.toNat + duration.nanos / nanosPerSecond

theorem nanosPerSecond_ne_zero : (nanosPerSecond : ℚ) ≠ 0 := by norm_num [nanosPerSecond]

theorem durationSeconds_lt (duration : Duration) :
    durationSeconds duration < duration.secs.toNat + 1 := by
  have valid : (duration.nanos : ℚ) < nanosPerSecond := by exact_mod_cast duration.validNanos
  have below : (duration.nanos : ℚ) / nanosPerSecond < 1 :=
    (div_lt_one (by norm_num [nanosPerSecond])).mpr valid
  unfold durationSeconds
  linarith

/-- A duration's whole seconds are those of its length. -/
theorem floor_durationSeconds (duration : Duration) :
    ⌊durationSeconds duration⌋₊ = duration.secs.toNat := by
  apply (Nat.floor_eq_iff _).mpr
  · refine ⟨?_, durationSeconds_lt duration⟩
    unfold durationSeconds
    have fraction : (0 : ℚ) ≤ duration.nanos / nanosPerSecond := by positivity
    linarith
  · unfold durationSeconds
    positivity

theorem durationSeconds_injective : Function.Injective durationSeconds := by
  intro left right same
  have whole : left.secs = right.secs := by
    apply UInt64.toNat_inj.mp
    rw [← floor_durationSeconds left, same, floor_durationSeconds]
  have fraction : left.nanos = right.nanos := by
    unfold durationSeconds at same
    rw [whole] at same
    have scaled := (div_left_inj' nanosPerSecond_ne_zero).mp (add_left_cancel same)
    exact_mod_cast scaled
  cases left
  cases right
  cases whole
  cases fraction
  rfl

theorem durationSeconds_new {secs : UInt64} {nanos : Nat} (valid : nanos < nanosPerSecond) :
    durationSeconds (Duration.new secs nanos) = secs.toNat + nanos / nanosPerSecond := by
  rw [Duration.new_of_lt valid]
  rfl

/-- Truncation rounds the number of the units that a format shows down. -/
theorem durationSeconds_truncate (duration : Duration) (format : SecondsFormat) :
    durationSeconds (duration.truncate format) =
      ⌊durationSeconds duration * 10 ^ format.fractionDigits⌋₊ / 10 ^ format.fractionDigits := by
  have digits : format.fractionDigits ≤ 9 := by cases format <;> decide
  have units : (nanosPerSecond : ℚ) = format.unit * 10 ^ format.fractionDigits := by
    have product : nanosPerSecond = format.unit * 10 ^ format.fractionDigits := by
      rw [SecondsFormat.unit, ← Nat.pow_add, Nat.sub_add_cancel digits]
      rfl
    exact_mod_cast product
  have unit : (format.unit : ℚ) ≠ 0 := by exact_mod_cast format.unit_pos.ne'
  have shown : durationSeconds duration * 10 ^ format.fractionDigits =
      (duration.secs.toNat * 10 ^ format.fractionDigits : Nat) + duration.nanos / format.unit := by
    rw [durationSeconds, units]
    push_cast
    field_simp
  rw [shown, add_comm, Nat.floor_add_natCast (by positivity), Nat.floor_div_eq_div,
    durationSeconds, units]
  simp only [Duration.truncate]
  push_cast
  field_simp
  ring

/-! ## The decimal reader -/

/-- A fraction of at most nine digits is less than a second of nanoseconds. -/
theorem scaled_lt_nanosPerSecond {fraction : Text} (allDigits : fraction.all Char.isDigit = true)
    (few : fraction.length ≤ 9) :
    Decimal.digitsValue fraction * 10 ^ (9 - fraction.length) < nanosPerSecond := by
  have below := Decimal.digitsValue_lt allDigits
  calc Decimal.digitsValue fraction * 10 ^ (9 - fraction.length)
      < 10 ^ fraction.length * 10 ^ (9 - fraction.length) :=
        Nat.mul_lt_mul_of_pos_right below (Nat.pow_pos (by decide))
    _ = 10 ^ 9 := by rw [← Nat.pow_add, Nat.add_sub_cancel' few]

private theorem nanosPerSecond_lt_size : nanosPerSecond < UInt32.size := by decide

theorem fractionNanos_eq_ok_iff {fraction : Text} {nanos : UInt32} :
    fractionNanos fraction = .ok nanos ↔
      Decimal.isDigits fraction = true ∧ fraction.length ≤ 9 ∧
        nanos.toNat = Decimal.digitsValue fraction * 10 ^ (9 - fraction.length) := by
  unfold fractionNanos
  by_cases digits : Decimal.isDigits fraction = true
  · obtain ⟨given, allDigits⟩ := Decimal.isDigits_iff.mp digits
    rw [Decimal.byteLength_of_digits allDigits]
    by_cases few : fraction.length ≤ 9
    · have scaled := (scaled_lt_nanosPerSecond allDigits few).trans nanosPerSecond_lt_size
      have read : Decimal.digitsValue fraction < UInt32.size :=
        lt_of_le_of_lt (Nat.le_mul_of_pos_right _ (Nat.pow_pos (by decide))) scaled
      have checked : (fraction.isEmpty || decide (fraction.length > 9) ||
          !fraction.all Char.isDigit) = false := by
        simp [given, few, allDigits]
      rw [checked, if_neg (by decide), if_pos read, ← UInt32.ofNat_mul, Except.ok.injEq,
        eq_comm, ← UInt32.toNat_inj, UInt32.toNat_ofNat_of_lt' scaled]
      simp only [digits, few, true_and]
    · simp [few, Nat.lt_of_not_le few]
  · have refused : (fraction.isEmpty || decide (Utf8.byteLength fraction > 9) ||
        !fraction.all Char.isDigit) = true := by
      rw [Decimal.isDigits_iff, not_and_or, not_not] at digits
      cases digits with
      | inl empty => simp [empty]
      | inr other => simp [Bool.eq_false_of_not_eq_true other]
    simp [refused, digits]

/-- A decimal within the bounds of a duration: whole seconds of a machine word, and at
most nine more digits. -/
structure IsDuration (text whole fraction : Text) : Prop where
  decimal : IsDecimal text whole fraction
  inWord : Decimal.digitsValue whole < UInt64.size
  few : fraction.length ≤ 9

theorem parseDecimalDuration_whole {text : Text} {duration : Duration} (unpointed : '.' ∉ text) :
    parseDecimalDuration text = .ok duration ↔
      ∃ secs, parseUnsigned text = .ok secs ∧ duration = Duration.new secs 0 := by
  unfold parseDecimalDuration
  rw [Delimited.splitOnce?_eq_none_iff.mpr unpointed, bind_eq_ok_iff]
  refine exists_congr fun secs => and_congr_right fun _ => ?_
  exact (iff_of_eq (Except.ok.injEq _ _)).trans eq_comm

theorem parseDecimalDuration_pointed {whole fraction : Text} {duration : Duration}
    (unpointed : '.' ∉ whole) :
    parseDecimalDuration (whole ++ '.' :: fraction) = .ok duration ↔
      ∃ secs nanos, parseUnsigned whole = .ok secs ∧ fractionNanos fraction = .ok nanos ∧
        duration = Duration.new secs nanos.toNat := by
  have split : Delimited.splitOnce? '.' (whole ++ '.' :: fraction) = some (whole, fraction) :=
    Delimited.splitOnce?_eq_some_iff.mpr ⟨rfl, unpointed⟩
  unfold parseDecimalDuration
  rw [split, bind_eq_ok_iff]
  refine exists_congr fun secs => ?_
  rw [exists_and_left]
  refine and_congr_right fun _ => bind_eq_ok_iff.trans ?_
  refine exists_congr fun nanos => and_congr_right fun _ => ?_
  exact (iff_of_eq (Except.ok.injEq _ _)).trans eq_comm

/-- A decimal as whole seconds and nanoseconds. -/
theorem durationSeconds_eq_amount {whole fraction : Text} {secs : UInt64} {nanos : Nat}
    (few : fraction.length ≤ 9) (fractionDigits : fraction.all Char.isDigit = true)
    (secsValue : secs.toNat = Decimal.digitsValue whole)
    (nanosValue : nanos = Decimal.digitsValue fraction * 10 ^ (9 - fraction.length)) :
    durationSeconds (Duration.new secs nanos) = amount whole fraction := by
  have valid : nanos < nanosPerSecond := by
    rw [nanosValue]
    exact scaled_lt_nanosPerSecond fractionDigits few
  rw [durationSeconds_new valid, Decimal.amount_eq_units few, secsValue, ← nanosValue]
  norm_num [nanosPerSecond]

theorem exists_isDuration_of_parsed {text : Text} {duration : Duration}
    (parsed : parseDecimalDuration text = .ok duration) :
    ∃ whole fraction, IsDuration text whole fraction ∧
      durationSeconds duration = amount whole fraction := by
  by_cases point : '.' ∈ text
  · obtain ⟨whole, fraction, rfl, unpointed⟩ := List.eq_append_cons_of_mem point
    obtain ⟨secs, nanos, readWhole, readFraction, rfl⟩ :=
      (parseDecimalDuration_pointed unpointed).mp parsed
    obtain ⟨wholeDigits, secsValue⟩ := parseUnsigned_eq_ok_iff.mp readWhole
    obtain ⟨fractionDigits, few, nanosValue⟩ := fractionNanos_eq_ok_iff.mp readFraction
    refine ⟨whole, fraction, ⟨.pointed wholeDigits fractionDigits, ?_, few⟩, ?_⟩
    · rw [← secsValue]
      exact secs.toNat_lt_size
    · exact durationSeconds_eq_amount few (Decimal.isDigits_iff.mp fractionDigits).2 secsValue
        nanosValue
  · obtain ⟨secs, readWhole, rfl⟩ := (parseDecimalDuration_whole point).mp parsed
    obtain ⟨wholeDigits, secsValue⟩ := parseUnsigned_eq_ok_iff.mp readWhole
    refine ⟨text, [], ⟨.whole wholeDigits, ?_, by decide⟩, ?_⟩
    · rw [← secsValue]
      exact secs.toNat_lt_size
    · exact durationSeconds_eq_amount (by decide) rfl secsValue rfl

theorem IsDuration.exists_parsed {text whole fraction : Text}
    (isDuration : IsDuration text whole fraction) :
    ∃ duration, parseDecimalDuration text = .ok duration ∧
      durationSeconds duration = amount whole fraction := by
  obtain ⟨decimal, inWord, few⟩ := isDuration
  have wholeDigits := decimal.wholeDigits
  have unpointed : '.' ∉ whole :=
    Decimal.not_mem_of_isDigits wholeDigits (by decide)
  have secsValue : (UInt64.ofNat (Decimal.digitsValue whole)).toNat = Decimal.digitsValue whole :=
    UInt64.toNat_ofNat_of_lt' inWord
  have readWhole := parseUnsigned_eq_ok_iff.mpr ⟨wholeDigits, secsValue⟩
  cases decimal with
  | whole =>
      refine ⟨_, (parseDecimalDuration_whole unpointed).mpr ⟨_, readWhole, rfl⟩, ?_⟩
      exact durationSeconds_eq_amount few rfl secsValue rfl
  | pointed _ fractionDigits =>
      have allDigits := (Decimal.isDigits_iff.mp fractionDigits).2
      have nanosValue : (UInt32.ofNat
          (Decimal.digitsValue fraction * 10 ^ (9 - fraction.length))).toNat =
          Decimal.digitsValue fraction * 10 ^ (9 - fraction.length) :=
        UInt32.toNat_ofNat_of_lt'
          ((scaled_lt_nanosPerSecond allDigits few).trans nanosPerSecond_lt_size)
      have readFraction := fractionNanos_eq_ok_iff.mpr ⟨fractionDigits, few, nanosValue⟩
      refine ⟨_, (parseDecimalDuration_pointed unpointed).mpr
        ⟨_, _, readWhole, readFraction, rfl⟩, ?_⟩
      exact durationSeconds_eq_amount few allDigits secsValue nanosValue

/-- Exactly the decimals within the bounds are read, each as the number that it denotes. -/
theorem parseDecimalDuration_eq_ok_iff {text : Text} {duration : Duration} :
    parseDecimalDuration text = .ok duration ↔
      ∃ whole fraction, IsDuration text whole fraction ∧
        durationSeconds duration = amount whole fraction := by
  constructor
  · exact exists_isDuration_of_parsed
  · intro denoted
    obtain ⟨whole, fraction, isDuration, same⟩ := denoted
    obtain ⟨other, parsed, otherSame⟩ := isDuration.exists_parsed
    rw [parsed, durationSeconds_injective (same.trans otherSame.symm)]

/-! ## Printed durations -/

/-- The digits that a precision keeps. -/
def DurationPrecision.cut : DurationPrecision → SecondsFormat
  | .seconds => .secs
  | .millis => .millis
  | .micros => .micros
  | .nanos => .nanos

theorem parseDecimalDuration_fixedPoint {width : Nat} (positive : 0 < width)
    (few : width ≤ 9) (duration : Duration) :
    parseDecimalDuration (fixedPoint width duration) =
      .ok (Duration.new duration.secs
        (duration.nanos / 10 ^ (9 - width) * 10 ^ (9 - width))) := by
  have length : (Decimal.paddedDigits width (duration.nanos / 10 ^ (9 - width))).length = width :=
    Decimal.length_paddedDigits positive (leadingDigits_lt few duration.validNanos)
  have word : duration.nanos / 10 ^ (9 - width) * 10 ^ (9 - width) < UInt32.size :=
    (Nat.div_mul_le_self ..).trans_lt (duration.validNanos.trans nanosPerSecond_lt_size)
  have readFraction : fractionNanos
      (Decimal.paddedDigits width (duration.nanos / 10 ^ (9 - width))) =
      .ok (UInt32.ofNat (duration.nanos / 10 ^ (9 - width) * 10 ^ (9 - width))) := by
    refine fractionNanos_eq_ok_iff.mpr ⟨?_, length.trans_le few, ?_⟩
    · exact Decimal.isDigits_iff.mpr
        ⟨Decimal.paddedDigits_ne_nil _ _, Decimal.all_isDigit_paddedDigits _ _⟩
    · rw [length, Decimal.digitsValue_paddedDigits, UInt32.toNat_ofNat_of_lt' word]
  refine (parseDecimalDuration_pointed (Decimal.not_mem_digits (by decide))).mpr
    ⟨_, _, parseUnsigned_digits duration.secs, readFraction, ?_⟩
  rw [UInt32.toNat_ofNat_of_lt' word]

/-- A printed duration is read back without the digits left out. -/
theorem parseDecimalDuration_format (precision : DurationPrecision) (duration : Duration) :
    parseDecimalDuration (precision.format duration) =
      .ok (duration.truncate precision.cut) := by
  have truncated : ∀ cut : SecondsFormat,
      Duration.new duration.secs (duration.nanos / cut.unit * cut.unit) =
        duration.truncate cut := fun cut =>
    Duration.new_of_lt (duration.truncate cut).validNanos
  cases precision with
  | seconds =>
      have noNanos : duration.nanos / SecondsFormat.secs.unit * SecondsFormat.secs.unit = 0 := by
        have small : duration.nanos < SecondsFormat.secs.unit := duration.validNanos
        rw [Nat.div_eq_of_lt small, Nat.zero_mul]
      rw [DurationPrecision.cut, ← truncated, noNanos]
      exact (parseDecimalDuration_whole (Decimal.not_mem_digits (by decide))).mpr
        ⟨_, parseUnsigned_digits duration.secs, rfl⟩
  | millis =>
      rw [DurationPrecision.cut, ← truncated]
      exact parseDecimalDuration_fixedPoint (by decide) (by decide) duration
  | micros =>
      rw [DurationPrecision.cut, ← truncated]
      exact parseDecimalDuration_fixedPoint (by decide) (by decide) duration
  | nanos =>
      rw [DurationPrecision.cut, ← truncated]
      exact parseDecimalDuration_fixedPoint (by decide) (by decide) duration

end AzureInit.Diagnostics
