import Mathlib
import Tabletop.Proofs.Decimal

/-!
# Numbers without leading zeros

A number is written with the digits of any run that stands for it, less the zeros in front. So the
runs that are ever written are those that begin with a digit from `1` to `9`.
-/

namespace Tabletop.Text.Decimal

/-- The digits from the first one on that is not `0`. -/
def significant (digits : List Char) : List Char :=
  digits.dropWhile (· == '0')

/-- A digit from `1` to `9` and up to `more` digits after it. -/
inductive Proper (more : Nat) : List Char → Prop
  | intro {c : Char} {digits : List Char} (hfirst : '1' ≤ c ∧ c ≤ '9')
      (hdigits : Digits 0 more digits) : Proper more (c :: digits)

variable {digits : List Char} {least most more n : Nat}

theorem significant_cons_zero (digits : List Char) :
    significant ('0' :: digits) = significant digits :=
  List.dropWhile_cons_of_pos rfl

theorem significant_cons_of_ne {c : Char} (hc : c ≠ '0') (digits : List Char) :
    significant (c :: digits) = c :: digits :=
  List.dropWhile_cons_of_neg (by simpa using hc)

theorem significant_eq_nil_iff : significant digits = [] ↔ ∀ c ∈ digits, c = '0' := by
  simp only [significant, List.dropWhile_eq_nil_iff, beq_iff_eq]

theorem value_eq_zero_iff_significant (h : Digits least most digits) :
    value digits = 0 ↔ significant digits = [] := by
  rw [value_eq_zero_iff h.2.2, significant_eq_nil_iff]

theorem one_le_char_iff {c : Char} : '1' ≤ c ↔ '0' ≤ c ∧ c ≠ '0' := by
  rw [Char.le_def, Char.le_def, UInt32.le_iff_toNat_le, UInt32.le_iff_toNat_le, ne_eq,
    Char.ext_iff, ← UInt32.toNat_inj]
  change 49 ≤ c.toNat ↔ 48 ≤ c.toNat ∧ ¬c.toNat = 48
  omega

/-! ## Writing -/

@[simp] theorem value_write (n : Nat) : value (write n) = n :=
  Nat.ofDigitChars_ten_toDigits

theorem value_text (n : Nat) : value (text n).toList = n := by
  rw [text, String.toList_ofList, value_write]

theorem isDigit_of_mem_text {c : Char} (h : c ∈ (text n).toList) : c.isDigit = true := by
  rw [text, String.toList_ofList] at h
  exact Nat.isDigit_of_mem_toDigits (by decide) (by decide) h

theorem write_toNat_sub {c : Char} (hc : '0' ≤ c ∧ c ≤ '9') :
    write (c.toNat - '0'.toNat) = [c] := by
  have hlow := (toNat_of_isDigit (isDigit_iff.2 hc)).1
  have hlt := toNat_sub_lt hc
  rw [write, Nat.toDigits_of_lt_base hlt, List.singleton_inj, ← Char.toNat_inj,
    Nat.toNat_digitChar_of_lt_ten hlt]
  exact Nat.add_sub_of_le hlow

/-- Digits that are read after a number are written after it. -/
theorem write_ofDigitChars (hdigits : ∀ c ∈ digits, '0' ≤ c ∧ c ≤ '9') {start : Nat}
    (hstart : 0 < start) :
    write (Nat.ofDigitChars 10 digits start) = write start ++ digits := by
  induction digits generalizing start with
  | nil => rw [Nat.ofDigitChars_nil, List.append_nil]
  | cons c digits ih =>
      obtain ⟨hc, hdigits⟩ := List.forall_mem_cons.1 hdigits
      have hstep : write (10 * start + (c.toNat - '0'.toNat)) = write start ++ [c] := by
        rw [write, ← Nat.toDigits_append_toDigits (by decide) hstart (toNat_sub_lt hc)]
        exact congrArg (write start ++ ·) (write_toNat_sub hc)
      rw [Nat.ofDigitChars_cons, ih hdigits (by omega), hstep, List.append_assoc,
        List.singleton_append]

theorem write_value (hdigits : ∀ c ∈ digits, '0' ≤ c ∧ c ≤ '9') (hne : significant digits ≠ []) :
    write (value digits) = significant digits := by
  induction digits with
  | nil => exact absurd rfl hne
  | cons c digits ih =>
      obtain ⟨hc, hrest⟩ := List.forall_mem_cons.1 hdigits
      by_cases hzero : c = '0'
      · subst hzero
        rw [significant_cons_zero] at hne ⊢
        rw [← ih hrest hne, value, Nat.ofDigitChars_cons]
        rfl
      · have hpos : 0 < c.toNat - '0'.toNat :=
          Nat.pos_of_ne_zero (mt (toNat_sub_eq_zero_iff hc).1 hzero)
        rw [significant_cons_of_ne hzero, value, Nat.ofDigitChars_cons, Nat.mul_zero, Nat.zero_add,
          write_ofDigitChars hrest hpos, write_toNat_sub hc, List.singleton_append]

/-! ## Runs without leading zeros -/

theorem Digits.proper_significant (h : Digits least (more + 1) digits)
    (hne : significant digits ≠ []) : Proper more (significant digits) := by
  obtain ⟨-, hlength, hdigits⟩ := h
  have hsuffix : significant digits <:+ digits := List.dropWhile_suffix _
  cases hrun : significant digits with
  | nil => exact absurd hrun hne
  | cons c rest =>
      rw [hrun] at hsuffix
      obtain ⟨hc, hrest⟩ := List.forall_mem_cons.1 fun d hd ↦ hdigits d (hsuffix.subset hd)
      have hfirst : c ≠ '0' := by
        rintro rfl
        have hhead := List.head?_dropWhile_not (· == '0') digits
        rw [show digits.dropWhile (· == '0') = _ from hrun] at hhead
        cases hhead
      have hle := hsuffix.length_le.trans hlength
      exact .intro ⟨one_le_char_iff.2 ⟨hc.1, hfirst⟩, hc.2⟩
        ⟨Nat.zero_le _, Nat.le_of_succ_le_succ hle, hrest⟩

theorem Proper.toDigits (h : Proper more digits) : Digits 1 (more + 1) digits := by
  cases h with
  | intro hfirst hdigits =>
      obtain ⟨-, hlength, hdigits⟩ := hdigits
      exact ⟨Nat.le_add_left _ _, Nat.succ_le_succ hlength,
        List.forall_mem_cons.2 ⟨⟨(one_le_char_iff.1 hfirst.1).1, hfirst.2⟩, hdigits⟩⟩

theorem Proper.significant_eq (h : Proper more digits) : significant digits = digits := by
  cases h with
  | intro hfirst hdigits => exact significant_cons_of_ne (one_le_char_iff.1 hfirst.1).2 _

theorem Proper.ne_nil (h : Proper more digits) : digits ≠ [] := by
  rintro rfl
  cases h

theorem Proper.value_ne_zero (h : Proper more digits) : value digits ≠ 0 := by
  rw [ne_eq, value_eq_zero_iff_significant h.toDigits, h.significant_eq]
  exact h.ne_nil

theorem digits_write (h : n < 10 ^ (more + 1)) : Digits 1 (more + 1) (write n) := by
  refine ⟨Nat.length_toDigits_pos, ?_, ?_⟩
  · exact (Nat.length_toDigits_le_iff (by decide) more.succ_pos).2 h
  · intro c hc
    exact isDigit_iff.1 (Nat.isDigit_of_mem_toDigits (by decide) (by decide) hc)

theorem proper_write (hpos : 0 < n) (h : n < 10 ^ (more + 1)) : Proper more (write n) := by
  have hdigits := digits_write h
  have hne : significant (write n) ≠ [] := by
    rw [ne_eq, ← value_eq_zero_iff_significant hdigits, value_write]
    exact hpos.ne'
  have hwrite := write_value hdigits.2.2 hne
  rw [value_write] at hwrite
  rw [hwrite]
  exact hdigits.proper_significant hne

end Tabletop.Text.Decimal
