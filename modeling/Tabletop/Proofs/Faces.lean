import Mathlib
import Tabletop.Die

/-!
# Words and the faces that they choose

A word is multiplied by the number of sides. The upper half of the product is the face, counted
from zero, and the lower half says whether the word is accepted. The products that choose one face
lie in a window as long as the sides times a power of two, and so as many words choose it as the
power says.
-/

namespace Tabletop.Die

/-- How many of 32 places the number of sides leaves free at the front. -/
def leadingZeros (sides : UInt16) : Nat :=
  sides.toUInt32.toBitVec.clz.toNat

def Accepts (sides : UInt16) (w : Word) : Prop :=
  w.toNat * sides.toNat % 2 ^ 32 ≤ sides.toNat <<< leadingZeros sides - 1

instance (sides : UInt16) (w : Word) : Decidable (Accepts sides w) :=
  inferInstanceAs (Decidable (_ ≤ _))

/-- The face that an accepted word chooses. -/
def faceOf (sides : UInt16) (w : Word) : Nat :=
  1 + (w.toNat * sides.toNat) >>> 32

theorem leadingZeros_spec {sides : UInt16} (hsides : sides.toNat ≠ 0) :
    leadingZeros sides ≤ 31 ∧ 2 ^ (31 - leadingZeros sides) ≤ sides.toNat ∧
      sides.toNat < 2 ^ (32 - leadingZeros sides) := by
  have htoNat : sides.toUInt32.toBitVec.toNat = sides.toNat := UInt16.toNat_toUInt32 _
  have hne : sides.toUInt32.toBitVec ≠ 0#32 := by
    intro h
    exact hsides (htoNat.symm.trans (congrArg BitVec.toNat h))
  have hlt : sides.toUInt32.toBitVec.clz.toNat < 32 :=
    BitVec.lt_def.1 (BitVec.clz_lt_iff_ne_zero.2 hne)
  rw [← htoNat]
  exact ⟨Nat.le_of_lt_succ hlt, BitVec.two_pow_sub_clz_le_toNat_of_ne_zero (by decide) hne,
    BitVec.toNat_lt_two_pow_sub_clz⟩

theorem zone_eq (sides : UInt16) : zone sides = sides.toNat <<< leadingZeros sides - 1 := by
  by_cases hsides : sides.toNat = 0
  · simp [zone, hsides]
  · obtain ⟨hle, hlow, hhigh⟩ := leadingZeros_spec hsides
    have hlog : sides.toNat.log2 = 31 - leadingZeros sides := by
      rw [Nat.log2_eq_iff hsides]
      exact ⟨hlow, by rwa [show 31 - leadingZeros sides + 1 = 32 - leadingZeros sides by omega]⟩
    rw [zone, hlog, Nat.sub_sub_self hle]

/-- The sides, shifted to the front of 32 bits, fill at least half of them. -/
theorem sides_mul_two_pow_mem {sides : UInt16} (hsides : sides.toNat ≠ 0) :
    sides.toNat * 2 ^ leadingZeros sides ∈ Set.Ico (2 ^ 31) (2 ^ 32) := by
  obtain ⟨hle, hlow, hhigh⟩ := leadingZeros_spec hsides
  have hpos : 0 < 2 ^ leadingZeros sides := by positivity
  constructor
  · calc
      2 ^ 31 = 2 ^ (31 - leadingZeros sides) * 2 ^ leadingZeros sides := by
        rw [← pow_add, Nat.sub_add_cancel hle]
      _ ≤ sides.toNat * 2 ^ leadingZeros sides := Nat.mul_le_mul_right _ hlow
  · calc
      sides.toNat * 2 ^ leadingZeros sides <
          2 ^ (32 - leadingZeros sides) * 2 ^ leadingZeros sides :=
        Nat.mul_lt_mul_of_pos_right hhigh hpos
      _ = 2 ^ 32 := by rw [← pow_add, Nat.sub_add_cancel (by omega)]

theorem faceOf_eq (sides : UInt16) (w : Word) :
    faceOf sides w = 1 + w.toNat * sides.toNat / 2 ^ 32 := by
  rw [faceOf, Nat.shiftRight_eq_div_pow]

theorem faceOf_mem_Icc {sides : UInt16} (hsides : 0 < sides.toNat) (w : Word) :
    faceOf sides w ∈ Set.Icc 1 sides.toNat := by
  have hlt : w.toNat * sides.toNat / 2 ^ 32 < sides.toNat := by
    rw [Nat.div_lt_iff_lt_mul (by positivity), mul_comm sides.toNat]
    exact Nat.mul_lt_mul_of_pos_right w.toNat_lt hsides
  rw [faceOf_eq]
  exact ⟨by omega, by omega⟩

theorem face?_eq_none_iff {sides : UInt16} {w : Word} :
    face? sides w = none ↔ ¬Accepts sides w := by
  rw [Accepts, ← zone_eq]
  simp [face?]

theorem face?_eq_some_iff {sides : UInt16} {w : Word} {face : Score} :
    face? sides w = some face ↔ Accepts sides w ∧ face.toNat = faceOf sides w := by
  have htoNat : (UInt32.ofNat (1 + w.toNat * sides.toNat / 0x100000000)).toNat =
      faceOf sides w := by
    have hle : w.toNat * sides.toNat / 2 ^ 32 ≤ sides.toNat := by
      rw [Nat.div_le_iff_le_mul_add_pred (by positivity)]
      have hmul := Nat.mul_le_mul_right sides.toNat w.toNat_lt.le
      omega
    have hsides := sides.toNat_lt
    rw [faceOf_eq, UInt32.toNat_ofNat']
    exact Nat.mod_eq_of_lt (by omega)
  rw [Accepts, ← zone_eq, ← htoNat, UInt32.toNat_inj]
  simp [face?, eq_comm]

/-! ## Counting the words of a face -/

/-- A window as long as `k` steps of `s` holds `k` multiples of `s`, wherever it begins. -/
theorem ncard_multiples {s : Nat} (hs : 0 < s) (a k : Nat) :
    {n : Nat | a ≤ n * s ∧ n * s < a + s * k}.ncard = k := by
  have hlow (b n : Nat) : b ≤ n * s ↔ b ⌈/⌉ s ≤ n := by
    rw [ceilDiv_le_iff_le_mul hs, mul_comm]
  have hshift : (a + s * k) ⌈/⌉ s = a ⌈/⌉ s + k := by
    rw [Nat.ceilDiv_eq_add_pred_div, Nat.ceilDiv_eq_add_pred_div,
      show a + s * k + s - 1 = a + s - 1 + s * k by omega, Nat.add_mul_div_left _ _ hs]
  have hset : {n : Nat | a ≤ n * s ∧ n * s < a + s * k} = Set.Ico (a ⌈/⌉ s) (a ⌈/⌉ s + k) := by
    ext n
    rw [Set.mem_Ico, ← hlow, ← hshift, ← not_le, ← hlow, not_le]
    rfl
  rw [hset, Set.ncard_Ico_nat, Nat.add_sub_cancel_left]

/-- The window of products in which a face is chosen. -/
theorem accepts_and_faceOf_iff {sides : UInt16} {w : Word} {face : Nat} (hface : 1 ≤ face)
    (hsides : sides.toNat ≠ 0) :
    Accepts sides w ∧ faceOf sides w = face ↔
      (face - 1) * 2 ^ 32 ≤ w.toNat * sides.toNat ∧
        w.toNat * sides.toNat < (face - 1) * 2 ^ 32 + sides.toNat * 2 ^ leadingZeros sides := by
  have hwindow := sides_mul_two_pow_mem hsides
  rw [Accepts, faceOf_eq, Nat.shiftLeft_eq]
  simp only [Set.mem_Ico] at hwindow
  omega

/-- Every face has equally many words. -/
theorem ncard_words_of_face {sides : UInt16} {face : Nat} (hface : face ∈ Set.Icc 1 sides.toNat) :
    {w : Word | Accepts sides w ∧ faceOf sides w = face}.ncard = 2 ^ leadingZeros sides := by
  obtain ⟨hone, hle⟩ := hface
  have hsides : sides.toNat ≠ 0 := by omega
  have himage : UInt32.toNat '' {w : Word | Accepts sides w ∧ faceOf sides w = face} =
      {n : Nat | (face - 1) * 2 ^ 32 ≤ n * sides.toNat ∧
        n * sides.toNat < (face - 1) * 2 ^ 32 + sides.toNat * 2 ^ leadingZeros sides} := by
    ext n
    constructor
    · rintro ⟨w, hw, rfl⟩
      exact (accepts_and_faceOf_iff hone hsides).1 hw
    · intro hn
      -- The window ends before the product of the sides with `2 ^ 32`, so `n` is a word.
      have hlt : n < 2 ^ 32 := by
        apply Nat.lt_of_mul_lt_mul_right (a := sides.toNat)
        calc
          n * sides.toNat < (face - 1) * 2 ^ 32 + sides.toNat * 2 ^ leadingZeros sides := hn.2
          _ ≤ (face - 1) * 2 ^ 32 + 2 ^ 32 :=
            Nat.add_le_add_left (sides_mul_two_pow_mem hsides).2.le _
          _ ≤ 2 ^ 32 * sides.toNat := by omega
      have htoNat : (UInt32.ofNat n).toNat = n := UInt32.toNat_ofNat_of_lt' hlt
      refine ⟨UInt32.ofNat n, (accepts_and_faceOf_iff hone hsides).2 ?_, htoNat⟩
      rwa [htoNat]
  rw [← Set.ncard_image_of_injective _ fun _ _ ↦ UInt32.toNat_inj.1, himage,
    ncard_multiples (Nat.pos_of_ne_zero hsides)]

theorem exists_word_of_face {sides : UInt16} {face : Nat} (hface : face ∈ Set.Icc 1 sides.toNat) :
    ∃ w : Word, Accepts sides w ∧ faceOf sides w = face := by
  have hne : {w : Word | Accepts sides w ∧ faceOf sides w = face}.ncard ≠ 0 := by
    rw [ncard_words_of_face hface]
    positivity
  exact Set.nonempty_of_ncard_ne_zero hne

end Tabletop.Die
