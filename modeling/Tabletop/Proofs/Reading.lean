import Mathlib
import Tabletop.Proofs.Pattern

/-!
# What reading a text comes to

A formula comes of a text of the grammar, unless its dice have no sides. Any other text is handed
back.
-/

namespace Tabletop

open Text.Decimal

namespace Formula

theorem parse_of_spells {text : String} {w : Written} (h : w.Spells text.toList) :
    parse text = w.toFormula?.elim (.error .zeroSides) .ok := by
  have hparts := Written.ofChars?_eq_some_iff_spells.2 h
  cases hformula : w.toFormula? with
  | none => simp only [parse, hparts, hformula, Option.elim_none]
  | some f => simp only [parse, hparts, hformula, Option.elim_some]

theorem parse_of_not_spells {text : String} (h : ¬∃ w : Written, w.Spells text.toList) :
    parse text = .error (.mismatch text) := by
  have hnone : Written.ofChars? text.toList = none := by
    rw [Option.eq_none_iff_forall_ne_some]
    intro w hw
    exact h ⟨w, Written.ofChars?_eq_some_iff_spells.1 hw⟩
  rw [parse, hnone]

theorem parse_eq_ok_iff {text : String} {f : Formula} :
    parse text = .ok f ↔
      ∃ w : Written, w.Spells text.toList ∧ value w.sides ≠ 0 ∧ w.Denotes f := by
  by_cases h : ∃ w : Written, w.Spells text.toList
  · obtain ⟨w, hw⟩ := h
    rw [hw.exists_and_iff, ← hw.toFormula?_eq_some_iff, parse_of_spells hw]
    cases w.toFormula? <;> simp
  · rw [parse_of_not_spells h]
    exact iff_of_false (by simp) fun ⟨w, hw, _⟩ ↦ h ⟨w, hw⟩

theorem parse_eq_zeroSides_iff {text : String} :
    parse text = .error .zeroSides ↔
      ∃ w : Written, w.Spells text.toList ∧ value w.sides = 0 := by
  by_cases h : ∃ w : Written, w.Spells text.toList
  · obtain ⟨w, hw⟩ := h
    rw [hw.exists_and_iff, ← hw.toFormula?_eq_none_iff, parse_of_spells hw]
    cases w.toFormula? <;> simp
  · rw [parse_of_not_spells h]
    exact iff_of_false (by simp) fun ⟨w, hw, _⟩ ↦ h ⟨w, hw⟩

theorem parse_eq_mismatch_iff {text carried : String} :
    parse text = .error (.mismatch carried) ↔
      carried = text ∧ ¬∃ w : Written, w.Spells text.toList := by
  by_cases h : ∃ w : Written, w.Spells text.toList
  · obtain ⟨w, hw⟩ := h
    rw [parse_of_spells hw]
    cases w.toFormula? <;> simp [show ∃ w : Written, w.Spells text.toList from ⟨w, hw⟩]
  · rw [parse_of_not_spells h]
    simp [h, eq_comm]

/-- Reading is decided by the grammar alone, which is what the pattern finds. A text has at most one
way to be spelled; with it come the fields of its formula, or the refusal of dice without sides, and
without it the text is handed back as it was given. -/
theorem parse_decided_by_grammar (text : String) :
    (∀ groups, Pattern.formula.search text.toList = some groups ↔
      ∃ w : Written, w.Spells text.toList ∧ groups = w.groups) ∧
    (∀ f, parse text = .ok f ↔
      ∃ w : Written, w.Spells text.toList ∧ value w.sides ≠ 0 ∧ w.Denotes f) ∧
    {w : Written | w.Spells text.toList}.Subsingleton ∧
    (parse text = .error .zeroSides ↔
      ∃ w : Written, w.Spells text.toList ∧ value w.sides = 0) ∧
    (∀ carried, parse text = .error (.mismatch carried) ↔
      carried = text ∧ ¬∃ w : Written, w.Spells text.toList) ∧
    ((∃ c ∈ text.toList, ¬('0' ≤ c ∧ c ≤ '9') ∧ c ≠ 'd' ∧ c ≠ '+' ∧ c ≠ '-') →
      parse text = .error (.mismatch text)) ∧
    ((∃ run, run <:+: text.toList ∧ (∀ c ∈ run, '0' ≤ c ∧ c ≤ '9') ∧ 3 < run.length) →
      parse text = .error (.mismatch text)) := by
  refine ⟨fun groups ↦ Pattern.search_formula_eq_some_iff, fun f ↦ parse_eq_ok_iff,
    fun v hv w hw ↦ hv.unique hw, parse_eq_zeroSides_iff, fun carried ↦ parse_eq_mismatch_iff, ?_, ?_⟩
  · intro hstray
    obtain ⟨c, hc, hdigit, hd, hplus, hminus⟩ := hstray
    apply parse_of_not_spells
    intro hspells
    obtain ⟨w, hw⟩ := hspells
    have hmem := hw.mem_alphabet hc
    tauto
  · intro hlong
    obtain ⟨run, hrun, hdigits, hlength⟩ := hlong
    apply parse_of_not_spells
    intro hspells
    obtain ⟨w, hw⟩ := hspells
    have hle := hw.length_le_of_infix hrun hdigits
    omega

theorem parse_line_break_and_long_run :
    parse "2d6\n" = .error (.mismatch "2d6\n") ∧ parse "2d1000" = .error (.mismatch "2d1000") := by
  obtain ⟨-, -, -, -, -, hstray, -⟩ := parse_decided_by_grammar "2d6\n"
  obtain ⟨-, -, -, -, -, -, hlong⟩ := parse_decided_by_grammar "2d1000"
  constructor
  · apply hstray
    exact ⟨'\n', by simp, by decide⟩
  · apply hlong
    exact ⟨['1', '0', '0', '0'], ⟨['2', 'd'], [], by simp⟩, by simp, by simp⟩

end Formula

end Tabletop
