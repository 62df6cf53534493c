import Mathlib.Tactic
import AzureInit.Foundation.Utf8Text

/-! Decimal text of natural numbers, plain and padded with zeros to a width. -/

set_option autoImplicit false

namespace AzureInit.Foundation.Decimal

/-- The text of a number without leading zeros. -/
def digits (value : Nat) : Text := Nat.toDigits 10 value

/-- The text of a number padded with zeros on the left. -/
def paddedDigits (width value : Nat) : Text := (digits value).leftpad width '0'

/-- The number written by a run of ASCII digits. -/
def digitsValue (text : Text) : Nat := Nat.ofDigitChars 10 text 0

/-- A non-empty run of ASCII digits. -/
def isDigits (text : Text) : Bool := !text.isEmpty && text.all Char.isDigit

theorem isDigit_of_mem_digits {value : Nat} {c : Char} (member : c ∈ digits value) :
    c.isDigit = true :=
  Nat.isDigit_of_mem_toDigits (by decide) (by decide) member

theorem isDigit_of_mem_paddedDigits {width value : Nat} {c : Char}
    (member : c ∈ paddedDigits width value) : c.isDigit = true := by
  simp only [paddedDigits, List.leftpad, List.mem_append, List.mem_replicate] at member
  rcases member with padding | digit
  · rw [padding.2]
    decide
  · exact isDigit_of_mem_digits digit

@[simp] theorem digitsValue_digits (value : Nat) : digitsValue (digits value) = value :=
  Nat.ofDigitChars_ten_toDigits

@[simp] theorem digitsValue_paddedDigits (width value : Nat) :
    digitsValue (paddedDigits width value) = value := by
  simp only [digitsValue, paddedDigits, List.leftpad, Nat.ofDigitChars_append,
    Nat.ofDigitChars_replicate_zero, Nat.mul_zero]
  exact Nat.ofDigitChars_ten_toDigits

theorem digits_injective : Function.Injective digits := by
  intro left right same
  rw [← digitsValue_digits left, same, digitsValue_digits]

@[simp] theorem isDigits_digits (value : Nat) : isDigits (digits value) = true := by
  have nonempty : digits value ≠ [] := Nat.toDigits_ne_nil
  simp only [isDigits, Bool.and_eq_true, Bool.not_eq_true', List.isEmpty_eq_false_iff, ne_eq,
    nonempty, not_false_eq_true, true_and, List.all_eq_true]
  exact fun c member => isDigit_of_mem_digits member

theorem isDigits_iff {text : Text} :
    isDigits text = true ↔ text ≠ [] ∧ text.all Char.isDigit = true := by
  simp [isDigits]

theorem all_isDigit_paddedDigits (width value : Nat) :
    (paddedDigits width value).all Char.isDigit = true :=
  List.all_eq_true.mpr fun _ member => isDigit_of_mem_paddedDigits member

/-- Characters other than digits do not occur in decimal text. -/
theorem not_mem_of_all_isDigit {text : Text} {c : Char} (allDigits : text.all Char.isDigit = true)
    (notDigit : c.isDigit = false) : c ∉ text := by
  intro member
  rw [List.all_eq_true.mp allDigits c member] at notDigit
  cases notDigit

theorem not_mem_of_isDigits {text : Text} {c : Char} (digits : isDigits text = true)
    (notDigit : c.isDigit = false) : c ∉ text :=
  not_mem_of_all_isDigit (isDigits_iff.mp digits).2 notDigit

theorem not_mem_digits {value : Nat} {c : Char} (notDigit : c.isDigit = false) :
    c ∉ digits value :=
  not_mem_of_isDigits (isDigits_digits value) notDigit

theorem not_mem_paddedDigits {width value : Nat} {c : Char} (notDigit : c.isDigit = false) :
    c ∉ paddedDigits width value :=
  not_mem_of_all_isDigit (all_isDigit_paddedDigits width value) notDigit

theorem length_paddedDigits {width value : Nat} (positive : 0 < width)
    (fits : value < 10 ^ width) : (paddedDigits width value).length = width := by
  have bounded : (digits value).length ≤ width :=
    (Nat.length_toDigits_le_iff (by decide) positive).mpr fits
  simp only [paddedDigits, List.leftpad, List.length_append, List.length_replicate]
  omega

theorem paddedDigits_ne_nil (width value : Nat) : paddedDigits width value ≠ [] := by
  have nonempty : digits value ≠ [] := Nat.toDigits_ne_nil
  simp [paddedDigits, List.leftpad, nonempty]

theorem toNat_lt_of_isDigit {c : Char} (digit : c.isDigit = true) : c.toNat < 128 := by
  rw [Char.isDigit, Bool.and_eq_true, decide_eq_true_eq, decide_eq_true_eq] at digit
  exact Nat.lt_of_le_of_lt (UInt32.le_iff_toNat_le.mp digit.2) (by decide)

theorem byteLength_of_digits {text : Text} (allDigits : text.all Char.isDigit = true) :
    Utf8.byteLength text = text.length :=
  Utf8.byteLength_of_ascii fun c member =>
    toNat_lt_of_isDigit (List.all_eq_true.mp allDigits c member)

end AzureInit.Foundation.Decimal
