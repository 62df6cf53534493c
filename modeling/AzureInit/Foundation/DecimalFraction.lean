import Mathlib.Data.List.DropRight
import AzureInit.Foundation.DecimalText

/-! Decimals with a fraction: the numbers that they denote, and what is left of one
without the zeros at its end. -/

set_option autoImplicit false

namespace AzureInit.Foundation

/-! ## Ends of texts -/

/-- The text without any of the characters at its end that are the given one. -/
def trimEndMatches (text : Text) (c : Char) : Text := text.rdropWhile (· == c)

theorem exists_trimEndMatches (text : Text) (c : Char) :
    ∃ count, text = trimEndMatches text c ++ List.replicate count c := by
  refine ⟨(text.rtakeWhile (· == c)).length, ?_⟩
  have same : text.rtakeWhile (· == c) =
      List.replicate (text.rtakeWhile (· == c)).length c := by
    apply List.eq_replicate_of_mem
    intro other member
    exact beq_iff_eq.mp (List.mem_rtakeWhile_imp (p := (· == c)) member)
  rw [← same]
  exact List.rdropWhile_append_rtakeWhile.symm

theorem trimEndMatches_of_not_mem {text : Text} {c : Char} (absent : c ∉ text) :
    trimEndMatches text c = text := by
  apply List.rdropWhile_eq_self_iff.mpr
  intro nonempty last
  exact absent (beq_iff_eq.mp last ▸ List.getLast_mem nonempty)

@[simp] theorem trimEndMatches_concat (text : Text) (c : Char) :
    trimEndMatches (text ++ [c]) c = trimEndMatches text c :=
  List.rdropWhile_concat_pos _ _ _ (beq_self_eq_true c)

/-- A character that is kept keeps all that is in front of it. -/
theorem trimEndMatches_append_cons {other c : Char} (different : other ≠ c)
    (front back : Text) :
    trimEndMatches (front ++ other :: back) c = front ++ other :: trimEndMatches back c := by
  induction back using List.reverseRecOn with
  | nil =>
      apply List.rdropWhile_concat_neg
      simpa using different
  | append_singleton back last ih =>
      by_cases same : last = c
      · subst same
        rw [← List.cons_append, ← List.append_assoc, trimEndMatches_concat, ih,
          trimEndMatches_concat]
      · have kept (text : Text) : trimEndMatches (text ++ [last]) c = text ++ [last] :=
          List.rdropWhile_concat_neg _ _ _ (by simpa using same)
        rw [← List.cons_append, ← List.append_assoc, kept, kept, List.append_assoc,
          List.cons_append]

namespace Decimal

/-! ## Digits -/

theorem digitsValue_append (front back : Text) :
    digitsValue (front ++ back) =
      10 ^ back.length * digitsValue front + digitsValue back := by
  rw [digitsValue, Nat.ofDigitChars_append, Nat.ofDigitChars_eq_ofDigitChars_zero]
  rfl

theorem digitsValue_singleton_lt {c : Char} (digit : c.isDigit = true) :
    digitsValue [c] < 10 := by
  rw [Char.isDigit, Bool.and_eq_true, decide_eq_true_eq, decide_eq_true_eq] at digit
  have atMost : c.toNat ≤ 57 := UInt32.le_iff_toNat_le.mp digit.2
  have value : digitsValue [c] = c.toNat - 48 := by
    rw [digitsValue, Nat.ofDigitChars_cons, Nat.ofDigitChars_nil, Nat.mul_zero, Nat.zero_add]
    rfl
  omega

theorem digitsValue_lt {text : Text} (allDigits : text.all Char.isDigit = true) :
    digitsValue text < 10 ^ text.length := by
  induction text using List.reverseRecOn with
  | nil => decide
  | append_singleton front last ih =>
      rw [List.all_append, Bool.and_eq_true, List.all_cons, List.all_nil, Bool.and_true]
        at allDigits
      have below := ih allDigits.1
      have digit := digitsValue_singleton_lt allDigits.2
      rw [digitsValue_append, List.length_append, List.length_singleton, Nat.pow_one,
        Nat.pow_succ]
      omega

/-! ## Decimals -/

/-- Digits, and perhaps more of them behind a point. -/
inductive IsDecimal : (text whole fraction : Text) → Prop where
  | whole {whole : Text} : isDigits whole = true → IsDecimal whole whole []
  | pointed {whole fraction : Text} : isDigits whole = true → isDigits fraction = true →
      IsDecimal (whole ++ '.' :: fraction) whole fraction

theorem IsDecimal.wholeDigits {text whole fraction : Text}
    (decimal : IsDecimal text whole fraction) : isDigits whole = true := by
  cases decimal with
  | whole digits => exact digits
  | pointed digits => exact digits

/-- The number that the digits in front of a point and those behind it denote. -/
def amount (whole fraction : Text) : ℚ :=
  digitsValue whole + digitsValue fraction / 10 ^ fraction.length

theorem amount_append_zeros (whole fraction : Text) (count : Nat) :
    amount whole (fraction ++ List.replicate count '0') = amount whole fraction := by
  have zeros : digitsValue (List.replicate count '0') = 0 := by
    rw [digitsValue, Nat.ofDigitChars_replicate_zero, Nat.mul_zero]
  rw [amount, amount, digitsValue_append, zeros, List.length_append, List.length_replicate]
  push_cast
  rw [pow_add]
  field_simp
  ring

/-- The fraction as a number of units, of which a power of ten make one. -/
theorem amount_eq_units {whole fraction : Text} {scale : Nat}
    (few : fraction.length ≤ scale) :
    amount whole fraction = digitsValue whole +
      (digitsValue fraction * 10 ^ (scale - fraction.length) : Nat) / 10 ^ scale := by
  have scales : (10 : ℚ) ^ scale = 10 ^ (scale - fraction.length) * 10 ^ fraction.length := by
    rw [← pow_add, Nat.sub_add_cancel few]
  rw [amount, scales]
  push_cast
  field_simp

/-- Without the zeros at its end, and the point if nothing is left behind it, a decimal
is one with a shorter fraction. -/
theorem exists_trimmed {whole fraction : Text} (wholeDigits : isDigits whole = true)
    (fractionDigits : fraction.all Char.isDigit = true) :
    ∃ kept count, fraction = kept ++ List.replicate count '0' ∧
      IsDecimal (trimEndMatches (trimEndMatches (whole ++ '.' :: fraction) '0') '.') whole kept := by
  obtain ⟨count, split⟩ := exists_trimEndMatches fraction '0'
  refine ⟨trimEndMatches fraction '0', count, split, ?_⟩
  rw [trimEndMatches_append_cons (by decide)]
  have keptDigits : (trimEndMatches fraction '0').all Char.isDigit = true := by
    rw [split, List.all_append, Bool.and_eq_true] at fractionDigits
    exact fractionDigits.1
  generalize trimEndMatches fraction '0' = kept at keptDigits
  have wholePlain : '.' ∉ whole :=
    not_mem_of_isDigits wholeDigits (by decide)
  by_cases empty : kept = []
  · subst empty
    rw [trimEndMatches_concat, trimEndMatches_of_not_mem wholePlain]
    exact .whole wholeDigits
  · have unchanged : trimEndMatches (whole ++ '.' :: kept) '.' = whole ++ '.' :: kept := by
      apply List.rdropWhile_eq_self_iff.mpr
      intro nonempty last
      rw [List.getLast_append_of_ne_nil _ (List.cons_ne_nil _ _), List.getLast_cons empty] at last
      have point := beq_iff_eq.mp last
      have member := List.getLast_mem empty
      rw [point] at member
      exact not_mem_of_all_isDigit keptDigits (by decide) member
    rw [unchanged]
    exact .pointed wholeDigits (isDigits_iff.mpr ⟨empty, keptDigits⟩)

end Decimal

end AzureInit.Foundation
