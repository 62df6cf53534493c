import AzureInit.Diagnostics.DurationCodec
import AzureInit.Diagnostics.ReferenceCrates

/-! The line that `diagnostics entries` prints for a diagnostic in text mode. The
duration in it is read back as the duration that was printed. -/

set_option autoImplicit false

namespace AzureInit.Cli

open Foundation
open Diagnostics
open Decimal (amount)

/-! ## The line -/

/-- `SecondsFormat::AutoSi`: the fewest fractional digits that lose nothing. -/
def autoSi (instant : DateTime) : SecondsFormat :=
  if instant.nanosecond % SecondsFormat.secs.unit = 0 then .secs
  else if instant.nanosecond % SecondsFormat.millis.unit = 0 then .millis
  else if instant.nanosecond % SecondsFormat.micros.unit = 0 then .micros
  else .nanos

/-- The nanosecond format without the zeros at its end, and without a point there. -/
def trimmedSeconds (duration : Duration) : Text :=
  trimEndMatches (trimEndMatches (DurationPrecision.nanos.format duration) '0') '.'

/-- What is written for a value that may be missing. -/
def optionalPart (label : Text) (given : Option Text) (unit : Text) : Text :=
  match given with
  | some text => label ++ text ++ unit
  | none => []

def payloadPart (crates : Crates) : DiagnosticPayload → Text
  | .text text => " payload=".toList ++ text
  | .bytes bytes => " payload_b64=".toList ++ crates.base64Encode bytes

def diagnosticText (crates : Crates) (diagnostic : Diagnostic) : Text :=
  let key := diagnostic.key
  let timestamp := crates.toRfc3339Opts key.timestamp (autoSi key.timestamp)
  let encoding := (key.encoding.map Encoding.toText).getD "none".toList
  "diagnostic kind=".toList ++ diagnostic.kind.toText ++ " agent=".toList ++ key.agent ++
    optionalPart " vm_id=".toList key.vmId [] ++
    " name=".toList ++ key.name ++ " event_id=".toList ++ key.eventId ++
    " timestamp=".toList ++ timestamp ++ " encoding=".toList ++ encoding ++
    optionalPart " result=".toList (diagnostic.result.map Outcome.asStr) [] ++
    optionalPart " duration=".toList (diagnostic.duration.map trimmedSeconds) ['s'] ++
    payloadPart crates diagnostic.payload

theorem diagnosticText_shows_duration (crates : Crates) {diagnostic : Diagnostic}
    {duration : Duration} (given : diagnostic.duration = some duration) :
    " duration=".toList ++ trimmedSeconds duration ++ ['s'] <:+:
      diagnosticText crates diagnostic := by
  unfold diagnosticText
  rw [given]
  exact List.infix_append _ _ _

/-! ## Durations -/

theorem parseDecimalDuration_trimmedSeconds (duration : Duration) :
    parseDecimalDuration (trimmedSeconds duration) = .ok duration := by
  have fractionLength : (Decimal.paddedDigits 9 (duration.nanos / 10 ^ (9 - 9))).length = 9 :=
    Decimal.length_paddedDigits (by decide) (leadingDigits_lt (Nat.le_refl 9) duration.validNanos)
  obtain ⟨kept, count, split, decimal⟩ := Decimal.exists_trimmed
    (Decimal.isDigits_digits duration.secs.toNat)
    (Decimal.all_isDigit_paddedDigits 9 (duration.nanos / 10 ^ (9 - 9)))
  have few : kept.length ≤ 9 := by
    rw [split, List.length_append] at fractionLength
    omega
  refine parseDecimalDuration_eq_ok_iff.mpr ⟨_, kept, ⟨decimal, ?_, few⟩, ?_⟩
  · rw [Decimal.digitsValue_digits]
    exact duration.secs.toNat_lt_size
  · rw [← Decimal.amount_append_zeros _ kept count, ← split, amount, fractionLength,
      Decimal.digitsValue_digits, Decimal.digitsValue_paddedDigits]
    unfold durationSeconds
    norm_num [nanosPerSecond]

example : trimmedSeconds (Duration.new 10 500000000) = "10.5".toList ∧
    trimmedSeconds (Duration.new 10 0) = "10".toList := by decide +kernel

/-- A text that is a decimal is never read as a floating-point number. -/
theorem parseDuration_of_decimal {text : Text} {duration : Duration} (crates : Crates)
    (parsed : parseDecimalDuration text = .ok duration) :
    parseDuration crates text = .ok duration := by
  rw [parseDuration, parsed]

/-- The decimal reader accepts exactly the decimals within the bounds of a duration and
reads each as the number that it denotes, with no overflow in the nanoseconds. Every
printed duration is among them: the writer's is read as the duration rounded down to the
digits of its precision, and the one in the line as the duration itself. -/
theorem durations_are_read_exactly (crates : Crates) :
    (∀ text duration, parseDecimalDuration text = .ok duration ↔
      ∃ whole fraction, IsDuration text whole fraction ∧
        durationSeconds duration = amount whole fraction) ∧
    (∀ fraction nanos, fractionNanos fraction = .ok nanos →
      nanos.toNat = Decimal.digitsValue fraction * 10 ^ (9 - Utf8.byteLength fraction) ∧
        nanos.toNat < nanosPerSecond) ∧
    (∀ (duration : Duration) (precision : DurationPrecision),
      parseDecimalDuration (precision.format duration) =
        .ok (duration.truncate precision.cut) ∧
      parseDuration crates (precision.format duration) =
        .ok (duration.truncate precision.cut) ∧
      durationSeconds (duration.truncate precision.cut) =
        ⌊durationSeconds duration * 10 ^ precision.cut.fractionDigits⌋₊ /
          10 ^ precision.cut.fractionDigits) ∧
    ∀ duration, parseDecimalDuration (trimmedSeconds duration) = .ok duration ∧
      parseDuration crates (trimmedSeconds duration) = .ok duration ∧
      ∀ diagnostic, diagnostic.duration = some duration →
        " duration=".toList ++ trimmedSeconds duration ++ ['s'] <:+:
          diagnosticText crates diagnostic := by
  refine ⟨?_, ?_, ?_, ?_⟩
  · intro text duration
    exact parseDecimalDuration_eq_ok_iff
  · intro fraction nanos accepted
    obtain ⟨digits, few, value⟩ := fractionNanos_eq_ok_iff.mp accepted
    have allDigits := (Decimal.isDigits_iff.mp digits).2
    rw [Decimal.byteLength_of_digits allDigits, value]
    exact ⟨rfl, scaled_lt_nanosPerSecond allDigits few⟩
  · intro duration precision
    have parsed := parseDecimalDuration_format precision duration
    exact ⟨parsed, parseDuration_of_decimal crates parsed, durationSeconds_truncate ..⟩
  · intro duration
    have parsed := parseDecimalDuration_trimmedSeconds duration
    refine ⟨parsed, parseDuration_of_decimal crates parsed, ?_⟩
    exact fun diagnostic given => diagnosticText_shows_duration crates given

/-- The zeros at the end are not shown, and those behind the point are. -/
theorem durations_are_read_exactly_sevenMicros :
    parseDuration ReferenceCrates.reference "0.000007".toList =
      .ok (Duration.fromMicros 7) := by
  have shown : trimmedSeconds (Duration.fromMicros 7) = "0.000007".toList := by decide +kernel
  rw [← shown]
  exact ((durations_are_read_exactly ReferenceCrates.reference).2.2.2 _).2.1

end AzureInit.Cli
