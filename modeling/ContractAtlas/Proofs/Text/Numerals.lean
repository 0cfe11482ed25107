/-
Written numbers are read back.

A number in base ten or sixteen is a row of digits, and reading the row gives
the number, whatever its size.  Only a decimal number with more digits than are
read is lost.
-/

import Mathlib.Tactic.IntervalCases
import ContractAtlas.Proofs.Text.Split
import ContractAtlas.Text.Integer

namespace ContractAtlas.Text

/-! ### Digits -/

/-- Single digits below the base are read as they are written. -/
structure Numerals (value? : Char → Option Nat) (base : Nat) : Prop where
  proper : 1 < base
  small : base ≤ 16
  reads : ∀ digit < base, value? (Nat.digitChar digit) = some digit

theorem digitValue?_digitChar {digit : Nat} (small : digit < 10) :
    digitValue? (Nat.digitChar digit) = some digit := by
  interval_cases digit <;> decide

theorem hexDigitValue?_digitChar {digit : Nat} (small : digit < 16) :
    hexDigitValue? (Nat.digitChar digit) = some digit := by
  interval_cases digit <;> decide

private theorem decimalNumerals : Numerals digitValue? 10 :=
  ⟨by decide, by decide, fun _ => digitValue?_digitChar⟩

theorem hexNumerals : Numerals hexDigitValue? 16 :=
  ⟨by decide, by decide, fun _ => hexDigitValue?_digitChar⟩

private theorem isNumberBlank_digitChar {digit : Nat} (small : digit < 16) :
    isNumberBlank (Nat.digitChar digit) = false := by
  interval_cases digit <;> decide

theorem digitChar_ne_underscore {digit : Nat} (small : digit < 16) :
    Nat.digitChar digit ≠ '_' := by
  interval_cases digit <;> decide

/-- The text consists of digits below the base. -/
def IsNumeral (base : Nat) (text : List Char) : Prop :=
  ∀ c ∈ text, ∃ digit < base, c = Nat.digitChar digit

theorem isNumeral_toDigits {base : Nat} (proper : 1 < base) (value : Nat) :
    IsNumeral base (Nat.toDigits base value) := by
  induction value using Nat.strongRecOn with
  | ind value inductionHypothesis =>
      rw [Nat.toDigits_eq_if proper]
      split
      · rename_i small
        intro c found
        exact ⟨value, small, List.mem_singleton.1 found⟩
      · rename_i large
        intro c found
        rcases List.mem_append.1 found with early | last
        · exact inductionHypothesis (value / base)
            (Nat.div_lt_self (by omega) proper) c early
        · exact ⟨value % base, Nat.mod_lt _ (by omega),
            List.mem_singleton.1 last⟩

theorem isDigit_of_mem_toDigits (value : Nat) {c : Char}
    (found : c ∈ Nat.toDigits 10 value) : isDigit c = true := by
  obtain ⟨digit, small, rfl⟩ := isNumeral_toDigits (by decide) value c found
  rw [isDigit, digitValue?_digitChar small]
  rfl

/-! ### Rows of digits -/

section

variable {value? : Char → Option Nat} {base : Nat}
  (numerals : Numerals value? base)
include numerals

/-- Without underscores the digits are read one by one. -/
theorem readDigitsFrom_cons (digit total : Nat) (small : digit < base)
    (rest : List Char) :
    readDigitsFrom value? base total (Nat.digitChar digit :: rest) =
      readDigitsFrom value? base (total * base + digit) rest := by
  rw [readDigitsFrom]
  · rw [numerals.reads digit small]
  · intro _ _ underscore
    exact absurd underscore
      (digitChar_ne_underscore (Nat.lt_of_lt_of_le small numerals.small))

theorem readDigitsFrom_append {text : List Char} (numeral : IsNumeral base text)
    (total : Nat) (rest : List Char) :
    readDigitsFrom value? base total (text ++ rest) =
      (readDigitsFrom value? base total text).bind fun value =>
        readDigitsFrom value? base value rest := by
  induction text generalizing total with
  | nil => simp only [List.nil_append, readDigitsFrom, Option.bind_some]
  | cons c more inductionHypothesis =>
      obtain ⟨digit, small, rfl⟩ := numeral c List.mem_cons_self
      rw [List.cons_append, readDigitsFrom_cons numerals digit total small,
        readDigitsFrom_cons numerals digit total small]
      exact inductionHypothesis
        (fun other later => numeral other (List.mem_cons_of_mem _ later)) _

theorem readDigitsFrom_toDigits (value : Nat) :
    readDigitsFrom value? base 0 (Nat.toDigits base value) = some value := by
  have proper := numerals.proper
  induction value using Nat.strongRecOn with
  | ind value inductionHypothesis =>
      rw [Nat.toDigits_eq_if proper]
      split
      · rename_i small
        rw [readDigitsFrom_cons numerals value 0 small, Nat.zero_mul,
          Nat.zero_add]
        rfl
      · rename_i large
        rw [readDigitsFrom_append numerals (isNumeral_toDigits proper _),
          inductionHypothesis (value / base)
            (Nat.div_lt_self (by omega) proper), Option.bind_some,
          readDigitsFrom_cons numerals _ _ (Nat.mod_lt _ (by omega)),
          Nat.div_add_mod']
        rfl

theorem readDigits_eq_readDigitsFrom {text : List Char}
    (numeral : IsNumeral base text) (nonempty : text ≠ []) :
    readDigits value? base text = readDigitsFrom value? base 0 text := by
  cases text with
  | nil => exact absurd rfl nonempty
  | cons c rest =>
      obtain ⟨digit, small, rfl⟩ := numeral c List.mem_cons_self
      rw [readDigitsFrom_cons numerals digit 0 small, Nat.zero_mul,
        Nat.zero_add, readDigits, numerals.reads digit small]

private theorem readDigits_toDigits (value : Nat) :
    readDigits value? base (Nat.toDigits base value) = some value := by
  rw [readDigits_eq_readDigitsFrom numerals
    (isNumeral_toDigits numerals.proper value) Nat.toDigits_ne_nil]
  exact readDigitsFrom_toDigits numerals value

end

/-! ### Nothing around the digits -/

/-- Nothing is trimmed off a text whose ends are not blank. -/
theorem trimNumber_eq_self {text : List Char}
    (started : ∀ c ∈ text.head?, isNumberBlank c = false)
    (ended : ∀ c ∈ text.getLast?, isNumberBlank c = false) :
    trimNumber text = text := by
  have kept : ∀ {row : List Char},
      (∀ c ∈ row.head?, isNumberBlank c = false) →
        row.dropWhile isNumberBlank = row :=
    fun first => (span_append (List.forall_mem_nil _) first).2
  rw [trimNumber, kept started, kept (by rwa [List.head?_reverse]),
    List.reverse_reverse]

theorem IsNumeral.not_blank {base : Nat} {text : List Char}
    (numeral : IsNumeral base text) (small : base ≤ 16) :
    ∀ c ∈ text, isNumberBlank c = false := by
  intro c member
  obtain ⟨digit, isDigit, rfl⟩ := numeral c member
  exact isNumberBlank_digitChar (Nat.lt_of_lt_of_le isDigit small)

private theorem trimNumber_numeral {base : Nat} {text : List Char}
    (numeral : IsNumeral base text) (small : base ≤ 16) :
    trimNumber text = text := by
  apply trimNumber_eq_self
  · intro c first
    exact numeral.not_blank small c (List.mem_of_head? first)
  · intro c last
    exact numeral.not_blank small c (List.mem_of_getLast? last)

private theorem readSigned_numeral {base : Nat} {text : List Char}
    (numeral : IsNumeral base text) (small : base ≤ 16)
    (read : List Char → Option Nat) :
    readSigned read text = (read text).map Int.ofNat := by
  have signs : ∀ digit < 16,
      Nat.digitChar digit ≠ '-' ∧ Nat.digitChar digit ≠ '+' := by decide
  have unsigned : ∀ c ∈ text, c ≠ '-' ∧ c ≠ '+' := by
    intro c member
    obtain ⟨digit, isDigit, rfl⟩ := numeral c member
    exact signs digit (Nat.lt_of_lt_of_le isDigit small)
  rw [readSigned]
  · cases read text with
    | none => rfl
    | some value => rfl
  · rintro rest rfl
    exact (unsigned '-' List.mem_cons_self).1 rfl
  · rintro rest rfl
    exact (unsigned '+' List.mem_cons_self).2 rfl

/-! ### Decimal numbers -/

private theorem isOverlong_toDigits_iff (value : Nat) :
    isOverlong (Nat.toDigits 10 value) = true ↔ 10 ^ decimalLimit ≤ value := by
  have counted : (Nat.toDigits 10 value).countP isDigit =
      (Nat.toDigits 10 value).length :=
    List.countP_eq_length.2 fun _ => isDigit_of_mem_toDigits value
  rw [isOverlong, counted, decide_eq_true_iff, ← Nat.not_le,
    Nat.length_toDigits_le_iff (by decide) (by decide), Nat.not_lt]

/-- A decimal number within the limit is read back. -/
theorem readDecimal_toDigits {value : Nat} (short : value < 10 ^ decimalLimit) :
    readDecimal (Nat.toDigits 10 value) = some (value : Int) := by
  have numeral := isNumeral_toDigits (by decide : 1 < 10) value
  have readable : isOverlong (Nat.toDigits 10 value) = false := by
    rw [← Bool.not_eq_true, isOverlong_toDigits_iff]
    exact Nat.not_le.2 short
  rw [readDecimal, trimNumber_numeral numeral (by decide),
    readSigned_numeral numeral (by decide), readDecimalDigits, readable,
    if_neg Bool.false_ne_true, readDigits_toDigits decimalNumerals]
  rfl

end ContractAtlas.Text
