import Mathlib
import Tabletop.Formula.Canonical
import Tabletop.Proofs.Exact
import Tabletop.Proofs.Numerals

/-!
# Reading the canonical text

The canonical text of a formula is made of proper numbers. It reads as the formula less a zero
adjustment, so two formulas share their canonical text when they are equal and not otherwise.
-/

namespace Tabletop

open Text.Decimal

namespace Written

/-- No number has a leading zero, none is missing, and a sign stands before a proper amount. -/
structure Proper (w : Written) : Prop where
  count : Text.Decimal.Proper 2 w.count
  sides : Text.Decimal.Proper 2 w.sides
  amount : ∀ s ∈ w.suffix, Text.Decimal.Proper 1 s.2

theorem Proper.spells {w : Written} (h : w.Proper) : w.Spells w.toChars := by
  obtain ⟨hcount, hsides, hamount⟩ := h
  obtain ⟨hsides, hne⟩ := digits_one_iff.1 hsides.toDigits
  refine spells_iff.2 ⟨⟨(digits_one_iff.1 hcount.toDigits).1, hsides, hne, ?_⟩, rfl⟩
  obtain ⟨count, sides, _ | suffix⟩ := w
  · exact digits_zero_iff.1 ⟨le_rfl, Nat.zero_le _, List.forall_mem_nil _⟩
  · exact (digits_one_iff.1 (hamount suffix rfl).toDigits).1

end Written

namespace Formula

variable {f g : Formula}

/-- The formula less an adjustment that does not tell in a roll. -/
def trimmed (f : Formula) : Formula :=
  { f with adjustment := f.effective }

/-- The parts of the canonical text. -/
def canonicalParts (f : Formula) : Written where
  count := write f.count.toNat
  sides := write f.sides.toNat
  suffix := f.effective.map fun a ↦ (a.sign, write a.amount.toNat)

theorem effective_eq_some_iff {a : Adjustment} :
    f.effective = some a ↔ f.adjustment = some a ∧ a.amount ≠ 0 := by
  rw [effective, Option.filter_eq_some_iff, bne_iff_ne]

theorem amount_pos_of_effective {a : Adjustment} (h : f.effective = some a) :
    0 < a.amount.toNat := by
  apply Nat.pos_of_ne_zero
  intro hzero
  exact (effective_eq_some_iff.1 h).2 (UInt8.toNat_inj.1 hzero)

theorem effective_eq_none_iff : f.effective = none ↔ f.amount? = none ∨ f.amount? = some 0 := by
  rw [effective, amount?]
  cases f.adjustment <;> simp

theorem effective_trimmed (f : Formula) : f.trimmed.effective = f.effective := by
  change (f.adjustment.filter (·.amount != 0)).filter (·.amount != 0) = f.effective
  simp only [Option.filter_filter, Bool.and_self, effective]

theorem trimmed_beq (f : Formula) : (f.trimmed == f) = true :=
  beq_iff.2 ⟨rfl, rfl, f.effective_trimmed⟩

theorem trimmed_eq_trimmed_iff : f.trimmed = g.trimmed ↔ (f == g) = true := by
  rw [beq_iff, trimmed, trimmed, Formula.mk.injEq]

theorem trimmed_trimmed (f : Formula) : f.trimmed.trimmed = f.trimmed :=
  trimmed_eq_trimmed_iff.2 f.trimmed_beq

theorem canonical_congr (h : (f == g) = true) : f.canonical = g.canonical := by
  obtain ⟨hcount, hsides, heffective⟩ := beq_iff.1 h
  rw [canonical, canonical, canonicalChars, canonicalChars, hcount, hsides, heffective]

theorem toChars_canonicalParts (f : Formula) : f.canonicalParts.toChars = f.canonicalChars := by
  rw [Written.toChars, canonicalChars, canonicalParts, Option.map_map]
  rfl

/-! ## What the canonical text reads as -/

theorem Limited.trimmed (hf : f.Limited) : f.trimmed.Limited where
  count_pos := hf.count_pos
  count_le := hf.count_le
  sides_pos := hf.sides_pos
  sides_le := hf.sides_le
  amount_le a ha := hf.amount_le a (effective_eq_some_iff.1 ha).1

theorem Limited.proper_canonicalParts (hf : f.Limited) : f.canonicalParts.Proper where
  count := proper_write hf.count_pos (Nat.lt_succ_of_le hf.count_le)
  sides := proper_write hf.sides_pos (Nat.lt_succ_of_le hf.sides_le)
  amount := by
    rintro _ hs
    obtain ⟨a, ha, rfl⟩ := Option.map_eq_some_iff.1 hs
    have hle := hf.amount_le a (effective_eq_some_iff.1 ha).1
    exact proper_write (amount_pos_of_effective ha) (Nat.lt_succ_of_le hle)

theorem Limited.spells_canonical (hf : f.Limited) :
    f.canonicalParts.Spells f.canonical.toList := by
  rw [canonical, String.toList_ofList, ← toChars_canonicalParts]
  exact hf.proper_canonicalParts.spells

theorem Limited.denotes_canonicalParts (hf : f.Limited) : f.canonicalParts.Denotes f.trimmed where
  count := by
    have hcount := hf.proper_canonicalParts.count
    rw [if_neg]
    · exact (value_write _).symm
    · rw [← value_eq_zero_iff hcount.toDigits.2.2]
      exact hcount.value_ne_zero
  sides := (value_write _).symm
  sign := by
    rw [sign?, canonicalParts, Option.map_map]
    rfl
  amount := by
    simp only [amount?, canonicalParts, Option.map_map, Formula.trimmed]
    congr 1
    funext a
    exact (value_write _).symm

theorem Limited.parse_canonical (hf : f.Limited) : parse f.canonical = .ok f.trimmed :=
  parse_eq_ok_iff.2 ⟨f.canonicalParts, hf.spells_canonical,
    hf.proper_canonicalParts.sides.value_ne_zero, hf.denotes_canonicalParts⟩

theorem Limited.canonical_eq_iff (hf : f.Limited) (hg : g.Limited) :
    f.canonical = g.canonical ↔ (f == g) = true := by
  constructor
  · intro h
    have hparse := hf.parse_canonical
    rw [h, hg.parse_canonical] at hparse
    exact trimmed_eq_trimmed_iff.1 (Except.ok.inj hparse).symm
  · exact canonical_congr

/-- The canonical text reads as an equal formula, with the numbers of the first and with its
adjustment, unless that adds or takes nothing. Writing and reading once more changes nothing. -/
theorem canonical_reads_back {text : String} (h : parse text = .ok f) :
    ∃ g, parse f.canonical = .ok g ∧ (g == f) = true ∧ g.count = f.count ∧ g.sides = f.sides ∧
      (∀ amount, f.amount? = some amount → amount ≠ 0 →
        g.sign? = f.sign? ∧ g.amount? = some amount) ∧
      (f.amount? = none ∨ f.amount? = some 0 → g.sign? = none ∧ g.amount? = none) ∧
      g.canonical = f.canonical ∧ parse g.canonical = .ok g := by
  have hf := Limited.of_parse h
  have hagain := hf.trimmed.parse_canonical
  rw [trimmed_trimmed] at hagain
  refine ⟨f.trimmed, hf.parse_canonical, f.trimmed_beq, rfl, rfl, ?_, ?_,
    canonical_congr f.trimmed_beq, hagain⟩
  · intro amount hamount hne
    obtain ⟨a, ha, rfl⟩ := Option.map_eq_some_iff.1 hamount
    have heffective : f.effective = some a := effective_eq_some_iff.2 ⟨ha, hne⟩
    rw [sign?, amount?, sign?, ha, trimmed, heffective]
    exact ⟨rfl, rfl⟩
  · intro hnone
    rw [sign?, amount?, trimmed, effective_eq_none_iff.2 hnone]
    exact ⟨rfl, rfl⟩

theorem padded_texts_read_back :
    parse "007d010-05" = .ok ⟨7, 10, some ⟨.minus, 5⟩⟩ ∧
      parse "d06+" = .ok ⟨1, 6, some ⟨.plus, 0⟩⟩ ∧
      (∃ g, parse (canonical ⟨7, 10, some ⟨.minus, 5⟩⟩) = .ok g ∧
        g.sign? = some .minus ∧ g.amount? = some 5) ∧
      ∃ g, parse (canonical ⟨1, 6, some ⟨.plus, 0⟩⟩) = .ok g ∧
        g.sign? = none ∧ g.amount? = none := by
  have hminus : parse "007d010-05" = .ok ⟨7, 10, some ⟨.minus, 5⟩⟩ := by
    simp only [Formula.parse, String.reduceToList]
    rfl
  have hplus : parse "d06+" = .ok ⟨1, 6, some ⟨.plus, 0⟩⟩ := by
    simp only [Formula.parse, String.reduceToList]
    rfl
  obtain ⟨g, hg, -, -, -, hkept, -⟩ := canonical_reads_back hminus
  obtain ⟨k, hk, -, -, -, -, hdropped, -⟩ := canonical_reads_back hplus
  exact ⟨hminus, hplus, ⟨g, hg, hkept 5 rfl (by decide)⟩, k, hk, hdropped (.inr rfl)⟩

end Formula

end Tabletop
