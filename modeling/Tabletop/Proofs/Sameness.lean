import Mathlib
import Tabletop.Proofs.Canonical

/-!
# Sameness of formulas and of readings

Equality, the canonical text and the words that go into the hash all tell the same formulas apart.
They do not see an adjustment that adds or takes nothing, though a formula keeps it as it was
written.
-/

namespace Tabletop.Formula

variable {f g : Formula}

theorem hashWords_eq_iff : f.hashWords = g.hashWords ↔ (f == g) = true := by
  constructor
  · intro h
    obtain ⟨hcount, htail⟩ := List.cons.inj h
    obtain ⟨hsides, htail⟩ := List.cons.inj htail
    refine beq_iff.2 ⟨UInt16.toUInt64_inj.1 hcount, UInt16.toUInt64_inj.1 hsides, ?_⟩
    -- The next word says whether there is an adjustment, and the one after it gives the sign.
    rcases hf : f.effective with _ | ⟨_ | _, amount⟩ <;>
      rcases hg : g.effective with _ | ⟨_ | _, amount'⟩ <;>
        simp_all [UInt8.toUInt64_inj]
  · exact hashWords_congr

/-! ## Readings -/

theorem sameReading_ok_iff {a b : String} (hf : parse a = .ok f) (hg : parse b = .ok g) :
    sameReading (parse a) (parse b) = true ↔ f.canonical = g.canonical := by
  rw [hf, hg, (Limited.of_parse hf).canonical_eq_iff (Limited.of_parse hg)]
  rfl

/-- A refused text is carried by its rejection, so that no two of them are the same. -/
theorem sameReading_error_iff {a b : String} {r q : Rejection} (hr : parse a = .error r)
    (hq : parse b = .error q) :
    sameReading (parse a) (parse b) = true ↔
      (r = .zeroSides ∧ q = .zeroSides) ∨
        ((∃ c, r = .mismatch c) ∧ (∃ c, q = .mismatch c) ∧ a = b) := by
  rw [hr, hq, sameReading, decide_eq_true_iff]
  constructor
  · rintro rfl
    cases r with
    | zeroSides => exact .inl ⟨rfl, rfl⟩
    | mismatch c =>
        have ha := (parse_eq_mismatch_iff.1 hr).1
        have hb := (parse_eq_mismatch_iff.1 hq).1
        exact .inr ⟨⟨c, rfl⟩, ⟨c, rfl⟩, ha.symm.trans hb⟩
  · rintro (⟨rfl, rfl⟩ | ⟨-, -, rfl⟩)
    · rfl
    · exact Except.error.inj (hr.symm.trans hq)

/-- Readings are the same when the texts make formulas with one canonical text, when both ask for
dice without sides, or when they are one text that is no formula. Equal formulas feed the same words
to the hash, and others do not, though equal formulas may differ in what was written. -/
theorem sameness_is_of_canonical_text :
    (∀ a b, sameReading (parse a) (parse b) = true ↔
      (∃ f g, parse a = .ok f ∧ parse b = .ok g ∧ f.canonical = g.canonical) ∨
      (parse a = .error .zeroSides ∧ parse b = .error .zeroSides) ∨
      ((∃ c, parse a = .error (.mismatch c)) ∧ (∃ c, parse b = .error (.mismatch c)) ∧ a = b)) ∧
    (∀ a b f g, parse a = .ok f → parse b = .ok g →
      ((f == g) = true ↔ f.hashWords = g.hashWords)) ∧
    ∃ a b f g, parse a = .ok f ∧ parse b = .ok g ∧ (f == g) = true ∧
      f.sign? ≠ g.sign? ∧ f.amount? ≠ g.amount? := by
  refine ⟨?_, fun _ _ _ _ _ _ ↦ hashWords_eq_iff.symm, ?_⟩
  · intro a b
    cases ha : parse a with
    | ok f =>
        cases hb : parse b with
        | ok g =>
            rw [← ha, ← hb, sameReading_ok_iff ha hb]
            simp [ha, hb]
        | error q => simp [sameReading]
    | error r =>
        cases hb : parse b with
        | ok g => simp [sameReading]
        | error q =>
            rw [← ha, ← hb, sameReading_error_iff ha hb]
            simp [ha, hb]
  · refine ⟨"2d6", "2d6+", ⟨2, 6, none⟩, ⟨2, 6, some ⟨.plus, 0⟩⟩, ?_, ?_, by decide, by decide,
      by decide⟩
    · simp only [parse, String.reduceToList]
      rfl
    · simp only [parse, String.reduceToList]
      rfl

theorem zero_adjustments_feed_the_same_words :
    parse "2d6+" = .ok ⟨2, 6, some ⟨.plus, 0⟩⟩ ∧ parse "02d6-00" = .ok ⟨2, 6, some ⟨.minus, 0⟩⟩ ∧
      hashWords ⟨2, 6, some ⟨.plus, 0⟩⟩ = hashWords ⟨2, 6, some ⟨.minus, 0⟩⟩ := by
  have hplus : parse "2d6+" = .ok ⟨2, 6, some ⟨.plus, 0⟩⟩ := by
    simp only [parse, String.reduceToList]
    rfl
  have hminus : parse "02d6-00" = .ok ⟨2, 6, some ⟨.minus, 0⟩⟩ := by
    simp only [parse, String.reduceToList]
    rfl
  exact ⟨hplus, hminus,
    (sameness_is_of_canonical_text.2.1 "2d6+" "02d6-00" _ _ hplus hminus).1 (by decide)⟩

end Tabletop.Formula
