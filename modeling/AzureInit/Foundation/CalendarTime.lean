import Mathlib.Tactic

/-! UTC instants in civil form and unsigned durations, with their cuts to a
number of fractional digits. -/

set_option autoImplicit false

namespace AzureInit.Foundation

def nanosPerSecond : Nat := 1000000000

/-- The leading digits of the nanoseconds of a second. -/
theorem leadingDigits_lt {nanos width : Nat} (few : width ≤ 9) (valid : nanos < nanosPerSecond) :
    nanos / 10 ^ (9 - width) < 10 ^ width := by
  have widths : 10 ^ (9 - width) * 10 ^ width = nanosPerSecond := by
    rw [← Nat.pow_add, Nat.sub_add_cancel few]
    rfl
  apply Nat.div_lt_of_lt_mul
  rw [widths]
  exact valid

def isLeapYear (year : Int) : Bool :=
  year % 4 == 0 && (year % 100 != 0 || year % 400 == 0)

def daysInMonth (year : Int) (month : Nat) : Nat :=
  if month == 2 then
    if isLeapYear year then 29 else 28
  else if month == 4 || month == 6 || month == 9 || month == 11 then 30
  else 31

/-- A UTC date and time. A leap second counts on from the second before it, with
nanoseconds of a whole second or more. -/
structure DateTime where
  year : Int
  month : Nat
  day : Nat
  hour : Nat
  minute : Nat
  second : Nat
  nanosecond : Nat
  validMonth : 1 ≤ month ∧ month ≤ 12
  validDay : 1 ≤ day ∧ day ≤ daysInMonth year month
  validTime : hour < 24 ∧ minute < 60 ∧ second < 60
  validNanosecond : nanosecond < 2 * nanosPerSecond
  deriving DecidableEq, Repr

/-- The number of fractional digits printed behind the seconds. -/
inductive SecondsFormat where
  | secs
  | millis
  | micros
  | nanos
  deriving DecidableEq, Repr

def SecondsFormat.fractionDigits : SecondsFormat → Nat
  | .secs => 0
  | .millis => 3
  | .micros => 6
  | .nanos => 9

/-- The nanoseconds of the last printed digit. -/
def SecondsFormat.unit (format : SecondsFormat) : Nat := 10 ^ (9 - format.fractionDigits)

theorem SecondsFormat.unit_pos (format : SecondsFormat) : 0 < format.unit :=
  Nat.pow_pos (by decide)

/-- The instant without the digits a format leaves out. -/
def DateTime.truncate (instant : DateTime) (format : SecondsFormat) : DateTime :=
  { instant with
    nanosecond := instant.nanosecond / format.unit * format.unit
    validNanosecond :=
      Nat.lt_of_le_of_lt (Nat.div_mul_le_self _ _) instant.validNanosecond }

def DateTime.isLeapSecond (instant : DateTime) : Bool :=
  nanosPerSecond ≤ instant.nanosecond

/-- The years that a printed instant has four digits for. -/
def DateTime.FourDigitYear (instant : DateTime) : Prop :=
  0 ≤ instant.year ∧ instant.year ≤ 9999

/-- A span of time: whole seconds of a machine word, and nanoseconds. -/
structure Duration where
  secs : UInt64
  nanos : Nat
  validNanos : nanos < nanosPerSecond
  deriving DecidableEq, Repr

/-- Whole nanoseconds of a second or more carry over into the seconds. -/
def Duration.new (secs : UInt64) (nanos : Nat) : Duration where
  secs := secs + UInt64.ofNat (nanos / nanosPerSecond)
  nanos := nanos % nanosPerSecond
  validNanos := Nat.mod_lt _ (by decide)

theorem Duration.new_of_lt {secs : UInt64} {nanos : Nat} (valid : nanos < nanosPerSecond) :
    Duration.new secs nanos = { secs, nanos, validNanos := valid } := by
  simp [Duration.new, Nat.div_eq_of_lt valid, Nat.mod_eq_of_lt valid]

def Duration.fromMicros (micros : UInt64) : Duration :=
  Duration.new (micros / 1000000) ((micros % 1000000).toNat * 1000)

/-- The duration without the fractional digits a format leaves out. -/
def Duration.truncate (duration : Duration) (format : SecondsFormat) : Duration :=
  { duration with
    nanos := duration.nanos / format.unit * format.unit
    validNanos := Nat.lt_of_le_of_lt (Nat.div_mul_le_self _ _) duration.validNanos }

end AzureInit.Foundation
