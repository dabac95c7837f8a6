import Mathlib
import Tabletop.Proofs.Reading
import Tabletop.Roll

/-!
# Rolls in exact numbers

Formulas that were read from text are small enough that no sum of their dice, and no adjustment of
it, leaves 32 bits. So a roll comes to what it comes to in natural numbers.
-/

namespace Tabletop

open Text.Decimal

namespace Formula

/-- The limits within which reading keeps a formula. -/
structure Limited (f : Formula) : Prop where
  count_pos : 0 < f.count.toNat
  count_le : f.count.toNat ≤ 999
  sides_pos : 0 < f.sides.toNat
  sides_le : f.sides.toNat ≤ 999
  amount_le : ∀ a ∈ f.adjustment, a.amount.toNat ≤ 99

theorem Limited.of_parse {text : String} {f : Formula} (h : parse text = .ok f) : f.Limited := by
  obtain ⟨w, hw, hzero, hf⟩ := parse_eq_ok_iff.1 h
  obtain ⟨hcount, hsides, hamount⟩ := hw.digits
  have hcountLt := value_lt_pow hcount
  have hsidesLt := value_lt_pow hsides
  have hcountEq := hf.count
  have hsidesEq := hf.sides
  rw [if_congr (value_eq_zero_iff hcount.2.2).symm rfl rfl] at hcountEq
  refine ⟨?_, ?_, by omega, by omega, ?_⟩
  · split at hcountEq <;> omega
  · split at hcountEq <;> omega
  · intro a ha
    have hamountEq := hf.amount
    obtain ⟨s, hs, hsa⟩ : ∃ s ∈ w.suffix, value s.2 = a.amount.toNat := by
      rw [amount?, Option.mem_def.1 ha] at hamountEq
      obtain ⟨s, hs, hsa⟩ := Option.map_eq_some_iff.1 hamountEq.symm
      exact ⟨s, hs, hsa⟩
    have hlt := value_lt_pow (hamount s hs)
    omega

end Formula

/-- The adjusted sum, without a limit to it. What is taken away leaves at least zero. -/
def Adjustment.exact (a : Adjustment) (sum : Nat) : Nat :=
  match a.sign with
  | .plus => sum + a.amount.toNat
  | .minus => sum - a.amount.toNat

/-- The result that belongs to a sum of dice, without a limit to either. -/
def Formula.exact (f : Formula) (sum : Nat) : Nat :=
  match f.adjustment with
  | some a => a.exact sum
  | none => sum

theorem Adjustment.toNat_apply (a : Adjustment) {sum : Score}
    (h : sum.toNat + a.amount.toNat < 0x100000000) :
    (a.apply sum).toNat = a.exact sum.toNat := by
  have hamount : a.amount.toUInt32.toNat = a.amount.toNat := UInt8.toNat_toUInt32 _
  obtain ⟨_ | _, amount⟩ := a
  · rw [apply, exact, UInt32.toNat_add, hamount]
    exact Nat.mod_eq_of_lt h
  · simp only [apply, exact]
    split
    · rename_i hle
      rw [UInt32.le_iff_toNat_le, hamount] at hle
      exact (Nat.sub_eq_zero_of_le hle).symm
    · rename_i hle
      rw [UInt32.le_iff_toNat_le, hamount] at hle
      rw [UInt32.toNat_sub_of_le, hamount]
      rw [UInt32.le_iff_toNat_le, hamount]
      omega

theorem toNat_foldl_add {faces : List Score} {start : Score}
    (h : start.toNat + (faces.map UInt32.toNat).sum < 0x100000000) :
    (faces.foldl (· + ·) start).toNat = start.toNat + (faces.map UInt32.toNat).sum := by
  induction faces generalizing start with
  | nil => simp
  | cons face faces ih =>
      rw [List.map_cons, List.sum_cons] at h
      have hstep : (start + face).toNat = start.toNat + face.toNat := by
        rw [UInt32.toNat_add]
        exact Nat.mod_eq_of_lt (by omega)
      rw [List.foldl_cons, ih (by omega), hstep, List.map_cons, List.sum_cons]
      omega

namespace Formula

variable {f : Formula}

theorem Limited.toNat_adjust (hf : f.Limited) {sum : Score} (hsum : sum.toNat ≤ 998001) :
    (f.adjust sum).toNat = f.exact sum.toNat := by
  unfold adjust exact
  cases hadjustment : f.adjustment with
  | none => rfl
  | some a =>
      have hamount := hf.amount_le a hadjustment
      exact a.toNat_apply (by omega)

theorem Limited.count_mul_sides_le (hf : f.Limited) : f.count.toNat * f.sides.toNat ≤ 998001 :=
  Nat.mul_le_mul hf.count_le hf.sides_le

theorem Limited.toNat_resultOfAll (hf : f.Limited) {face : Score}
    (hface : face.toNat ≤ f.sides.toNat) :
    (f.resultOfAll face).toNat = f.exact (f.count.toNat * face.toNat) := by
  have hle : f.count.toNat * face.toNat ≤ 998001 :=
    (Nat.mul_le_mul_left _ hface).trans hf.count_mul_sides_le
  have hproduct : (f.count.toUInt32 * face).toNat = f.count.toNat * face.toNat := by
    rw [UInt32.toNat_mul, UInt16.toNat_toUInt32]
    exact Nat.mod_eq_of_lt (by omega)
  rw [resultOfAll, hf.toNat_adjust (by omega), hproduct]

theorem Limited.toNat_minRoll (hf : f.Limited) : f.minRoll.toNat = f.exact f.count.toNat := by
  have hface : (1 : Score).toNat ≤ f.sides.toNat := hf.sides_pos
  rw [minRoll, hf.toNat_resultOfAll hface, UInt32.toNat_one, Nat.mul_one]

theorem Limited.toNat_maxRoll (hf : f.Limited) :
    f.maxRoll.toNat = f.exact (f.count.toNat * f.sides.toNat) := by
  rw [maxRoll, hf.toNat_resultOfAll (by rw [UInt16.toNat_toUInt32]), UInt16.toNat_toUInt32]

/-- The three ways of an adjustment: it is absent, adds a number or takes one away. -/
theorem exact_cases (f : Formula) :
    (∀ sum, f.exact sum = sum) ∨ (∃ a, ∀ sum, f.exact sum = sum + a) ∨
      ∃ a, ∀ sum, f.exact sum = sum - a := by
  unfold exact
  cases f.adjustment with
  | none => exact .inl fun _ ↦ rfl
  | some a =>
      obtain ⟨_ | _, amount⟩ := a
      · exact .inr (.inl ⟨amount.toNat, fun _ ↦ rfl⟩)
      · exact .inr (.inr ⟨amount.toNat, fun _ ↦ rfl⟩)

theorem exact_mono (f : Formula) : Monotone f.exact := by
  intro m n hmn
  rcases f.exact_cases with hexact | ⟨a, hexact⟩ | ⟨a, hexact⟩ <;>
    rw [hexact, hexact] <;> omega

/-- The dice of a formula, each with one of its faces. -/
structure Shows (f : Formula) (faces : List Nat) : Prop where
  length : faces.length = f.count.toNat
  mem_Icc : ∀ face ∈ faces, face ∈ Set.Icc 1 f.sides.toNat

theorem Shows.sum_mem_Icc {faces : List Nat} (h : f.Shows faces) :
    faces.sum ∈ Set.Icc f.count.toNat (f.count.toNat * f.sides.toNat) := by
  rw [← h.length]
  constructor
  · have hle := List.card_nsmul_le_sum faces 1 fun face hface ↦ (h.mem_Icc face hface).1
    simpa using hle
  · have hle := List.sum_le_card_nsmul faces f.sides.toNat fun face hface ↦
      (h.mem_Icc face hface).2
    simpa using hle

theorem Limited.toNat_sum_settle (hf : f.Limited) {faces : List Score}
    (hfaces : f.Shows (faces.map UInt32.toNat)) :
    (f.settle faces).sum.toNat = (faces.map UInt32.toNat).sum := by
  have hle := hfaces.sum_mem_Icc.2.trans hf.count_mul_sides_le
  rw [settle, toNat_foldl_add] <;> simp only [UInt32.toNat_zero, Nat.zero_add]
  omega

/-- What the dice come to is computed without loss. -/
theorem Limited.toNat_settle (hf : f.Limited) {faces : List Score}
    (hfaces : f.Shows (faces.map UInt32.toNat)) :
    (f.settle faces).result.toNat = f.exact (faces.map UInt32.toNat).sum := by
  have hle := hfaces.sum_mem_Icc.2.trans hf.count_mul_sides_le
  have hsum := hf.toNat_sum_settle hfaces
  rw [← hsum] at hle ⊢
  exact hf.toNat_adjust hle

end Formula

end Tabletop
