/-!
# Decimal numbers

A number is written without leading zeros. A run of digits is read into 16 bits, where a run of at
most four digits keeps its value.
-/

namespace Tabletop.Text.Decimal

/-- ASCII digits alone, and no more of them than `most`. -/
def IsNumeral (most : Nat) (digits : List Char) : Prop :=
  digits.length ≤ most ∧ ∀ c ∈ digits, c.isDigit = true

instance (most : Nat) (digits : List Char) : Decidable (IsNumeral most digits) :=
  decidable_of_iff (digits.length ≤ most ∧ digits.all Char.isDigit) (by simp [IsNumeral])

/-- The number that a run of digits stands for. The empty run is zero. -/
def read (digits : List Char) : UInt16 :=
  digits.foldl (fun value c => value * 10 + (c.toUInt8 - '0'.toUInt8).toUInt16) 0

def write (n : Nat) : List Char :=
  Nat.toDigits 10 n

def text (n : Nat) : String :=
  String.ofList (write n)

/-! ## Reading keeps the value -/

theorem toNat_of_isDigit {c : Char} (h : c.isDigit = true) : 48 ≤ c.toNat ∧ c.toNat ≤ 57 := by
  simp only [Char.isDigit, Bool.and_eq_true, decide_eq_true_eq, UInt32.le_iff_toNat_le] at h
  exact h

theorem toNat_digit {c : Char} (h : c.isDigit = true) :
    (c.toUInt8 - '0'.toUInt8).toUInt16.toNat = c.toNat - 48 := by
  obtain ⟨hlow, hhigh⟩ := toNat_of_isDigit h
  have hc : c.toUInt8.toNat = c.toNat := by
    rw [Char.toUInt8, UInt32.toNat_toUInt8]
    exact Nat.mod_eq_of_lt (Nat.lt_of_le_of_lt hhigh (by decide))
  have hle : '0'.toUInt8 ≤ c.toUInt8 := by
    rw [UInt8.le_iff_toNat_le, hc]
    exact hlow
  rw [UInt8.toNat_toUInt16, UInt8.toNat_sub_of_le _ _ hle, hc]
  rfl

theorem le_ofDigitChars (digits : List Char) (value : Nat) :
    value ≤ Nat.ofDigitChars 10 digits value := by
  induction digits generalizing value with
  | nil => simp
  | cons c digits ih =>
      rw [Nat.ofDigitChars_cons]
      have hrest := ih (10 * value + (c.toNat - '0'.toNat))
      omega

/-- No step of reading leaves 16 bits when the value as a whole does not. -/
theorem toNat_foldl {digits : List Char} (hdigits : ∀ c ∈ digits, c.isDigit = true)
    {value : UInt16} (hvalue : Nat.ofDigitChars 10 digits value.toNat < 0x10000) :
    (digits.foldl (fun value c => value * 10 + (c.toUInt8 - '0'.toUInt8).toUInt16) value).toNat =
      Nat.ofDigitChars 10 digits value.toNat := by
  induction digits generalizing value with
  | nil => simp
  | cons c digits ih =>
      rw [Nat.ofDigitChars_cons] at hvalue ⊢
      have hle := le_ofDigitChars digits (10 * value.toNat + (c.toNat - '0'.toNat))
      have hstep : (value * 10 + (c.toUInt8 - '0'.toUInt8).toUInt16).toNat =
          10 * value.toNat + (c.toNat - '0'.toNat) := by
        rw [UInt16.toNat_add, UInt16.toNat_mul, toNat_digit (hdigits c (by simp))]
        change (value.toNat * 10 % 0x10000 + (c.toNat - '0'.toNat)) % 0x10000 = _
        omega
      rw [List.foldl_cons, ← hstep]
      refine ih (fun d hd => hdigits d (by simp [hd])) ?_
      rwa [hstep]

theorem ofDigitChars_lt {digits : List Char} (h : IsNumeral 4 digits) :
    Nat.ofDigitChars 10 digits 0 < 10000 := by
  obtain ⟨hlength, hdigits⟩ := h
  have hbound : ∀ c ∈ digits, c.toNat - '0'.toNat ≤ 9 := by
    intro c hc
    have hc := (toNat_of_isDigit (hdigits c hc)).2
    change c.toNat - 48 ≤ 9
    omega
  match digits, hlength, hbound with
  | [], _, _ => simp
  | [a], _, h | [a, b], _, h | [a, b, c], _, h | [a, b, c, d], _, h =>
      simp only [List.forall_mem_cons, Nat.ofDigitChars_cons, Nat.ofDigitChars_nil] at h ⊢
      omega

theorem toNat_read {digits : List Char} {most : Nat} (h : IsNumeral most digits)
    (hmost : most ≤ 4) : (read digits).toNat = Nat.ofDigitChars 10 digits 0 := by
  have hlt := ofDigitChars_lt ⟨Nat.le_trans h.1 hmost, h.2⟩
  exact toNat_foldl h.2 (Nat.lt_trans hlt (by decide))

end Tabletop.Text.Decimal
