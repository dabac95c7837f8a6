import Mathlib
import Tabletop.Text.Decimal

/-!
# The value of a run of digits

Runs of any length have a value, and the short runs that a formula is made of are read as theirs.
-/

namespace Tabletop.Text.Decimal

/-- The number that a run of digits stands for, however long the run is. -/
def value (digits : List Char) : Nat :=
  Nat.ofDigitChars 10 digits 0

/-- From `least` to `most` of the digits `0` to `9`. -/
def Digits (least most : Nat) (digits : List Char) : Prop :=
  least ≤ digits.length ∧ digits.length ≤ most ∧ ∀ c ∈ digits, '0' ≤ c ∧ c ≤ '9'

@[simp] theorem value_nil : value [] = 0 := by
  simp [value]

theorem isDigit_iff {c : Char} : c.isDigit = true ↔ '0' ≤ c ∧ c ≤ '9' := by
  simp only [Char.isDigit, Bool.and_eq_true, decide_eq_true_eq, Char.le_def]

theorem digits_zero_iff {most : Nat} {digits : List Char} :
    Digits 0 most digits ↔ IsNumeral most digits := by
  simp only [Digits, IsNumeral, isDigit_iff, Nat.zero_le, true_and]

theorem digits_one_iff {most : Nat} {digits : List Char} :
    Digits 1 most digits ↔ IsNumeral most digits ∧ digits ≠ [] := by
  simp only [Digits, IsNumeral, isDigit_iff, Nat.one_le_iff_ne_zero, ne_eq,
    List.length_eq_zero_iff]
  tauto

theorem toNat_sub_lt {c : Char} (hc : '0' ≤ c ∧ c ≤ '9') : c.toNat - '0'.toNat < 10 := by
  have hle := (toNat_of_isDigit (isDigit_iff.2 hc)).2
  change c.toNat - 48 < 10
  omega

theorem toNat_sub_eq_zero_iff {c : Char} (hc : '0' ≤ c ∧ c ≤ '9') :
    c.toNat - '0'.toNat = 0 ↔ c = '0' := by
  have hlow := (toNat_of_isDigit (isDigit_iff.2 hc)).1
  rw [← Char.toNat_inj]
  change c.toNat - 48 = 0 ↔ c.toNat = 48
  omega

/-- Each further digit makes room for ten times as many numbers. -/
theorem ofDigitChars_lt_pow {digits : List Char} (hdigits : ∀ c ∈ digits, '0' ≤ c ∧ c ≤ '9')
    (start : Nat) :
    Nat.ofDigitChars 10 digits start < (start + 1) * 10 ^ digits.length := by
  induction digits generalizing start with
  | nil => simp
  | cons c digits ih =>
      obtain ⟨hc, hdigits⟩ := List.forall_mem_cons.1 hdigits
      have hten := toNat_sub_lt hc
      rw [Nat.ofDigitChars_cons]
      calc
        Nat.ofDigitChars 10 digits (10 * start + (c.toNat - '0'.toNat)) <
            (10 * start + (c.toNat - '0'.toNat) + 1) * 10 ^ digits.length := ih hdigits _
        _ ≤ ((start + 1) * 10) * 10 ^ digits.length := by gcongr; omega
        _ = (start + 1) * 10 ^ (c :: digits).length := by
            rw [List.length_cons, pow_succ]
            ring

theorem value_lt_pow {least most : Nat} {digits : List Char} (h : Digits least most digits) :
    value digits < 10 ^ most := by
  obtain ⟨-, hmost, hdigits⟩ := h
  calc
    value digits < (0 + 1) * 10 ^ digits.length := ofDigitChars_lt_pow hdigits 0
    _ ≤ 10 ^ most := by
        rw [zero_add, one_mul]
        exact Nat.pow_le_pow_right (by decide) hmost

theorem value_eq_zero_iff {digits : List Char} (hdigits : ∀ c ∈ digits, '0' ≤ c ∧ c ≤ '9') :
    value digits = 0 ↔ ∀ c ∈ digits, c = '0' := by
  induction digits with
  | nil => simp
  | cons c digits ih =>
      obtain ⟨hc, hdigits⟩ := List.forall_mem_cons.1 hdigits
      rw [value, Nat.ofDigitChars_cons, Nat.ofDigitChars_eq_ofDigitChars_zero,
        List.forall_mem_cons, ← toNat_sub_eq_zero_iff hc, ← ih hdigits]
      simp [value]

theorem toNat_read_eq_value {least most : Nat} {digits : List Char}
    (h : Digits least most digits) (hmost : most ≤ 4) : (read digits).toNat = value digits :=
  toNat_read (digits_zero_iff.1 ⟨Nat.zero_le _, h.2⟩) hmost

theorem read_eq_zero_iff {least most : Nat} {digits : List Char}
    (h : Digits least most digits) (hmost : most ≤ 4) : read digits = 0 ↔ value digits = 0 := by
  rw [← UInt16.toNat_inj, toNat_read_eq_value h hmost]
  rfl

end Tabletop.Text.Decimal
