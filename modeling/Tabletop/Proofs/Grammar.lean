import Mathlib
import Tabletop.Formula.Parse
import Tabletop.Proofs.Decimal

/-!
# The grammar of formulas

Up to three digits, a `d`, one to three digits and, perhaps, a sign with up to two digits. A text
that is spelled in this way is spelled in only one, and its parts decide what reading it comes to.
-/

namespace Tabletop

open Text.Decimal

namespace Written

/-- The texts that a formula may be written as, each with its parts. -/
inductive Spells : Written → List Char → Prop
  | plain {count sides : List Char} (hcount : Digits 0 3 count) (hsides : Digits 1 3 sides) :
      Spells { count, sides } (count ++ 'd' :: sides)
  | signed {count sides amount : List Char} (sign : Sign) (hcount : Digits 0 3 count)
      (hsides : Digits 1 3 sides) (hamount : Digits 0 2 amount) :
      Spells { count, sides, suffix := some (sign, amount) }
        (count ++ 'd' :: (sides ++ sign.symbol :: amount))

/-- The formula that the parts stand for, number by number. -/
structure Denotes (w : Written) (f : Formula) : Prop where
  count : f.count.toNat = if ∀ c ∈ w.count, c = '0' then 1 else value w.count
  sides : f.sides.toNat = value w.sides
  sign : f.sign? = w.suffix.map fun (sign, _) => sign
  amount : f.amount?.map UInt8.toNat = w.suffix.map fun (_, amount) => value amount

theorem spells_iff {w : Written} {text : List Char} :
    w.Spells text ↔ w.Valid ∧ w.toChars = text := by
  constructor
  · intro h
    cases h with
    | plain hcount hsides =>
        obtain ⟨hsides, hne⟩ := digits_one_iff.1 hsides
        exact ⟨⟨digits_zero_iff.1 hcount, hsides, hne, by simp [amount, IsNumeral]⟩,
          by simp [toChars]⟩
    | signed sign hcount hsides hamount =>
        obtain ⟨hsides, hne⟩ := digits_one_iff.1 hsides
        exact ⟨⟨digits_zero_iff.1 hcount, hsides, hne, digits_zero_iff.1 hamount⟩,
          by simp [toChars]⟩
  · rintro ⟨⟨hcount, hsides, hne, hamount⟩, rfl⟩
    obtain ⟨count, sides, _ | ⟨sign, digits⟩⟩ := w
    · have hplain := Spells.plain (digits_zero_iff.2 hcount) (digits_one_iff.2 ⟨hsides, hne⟩)
      simpa [toChars] using hplain
    · have hsigned := Spells.signed sign (digits_zero_iff.2 hcount)
        (digits_one_iff.2 ⟨hsides, hne⟩) (digits_zero_iff.2 hamount)
      simpa [toChars, amount] using hsigned

theorem ofChars?_eq_some_iff_spells {w : Written} {text : List Char} :
    ofChars? text = some w ↔ w.Spells text := by
  rw [ofChars?_eq_some_iff, spells_iff]

/-- No text can be taken apart in two ways. -/
theorem Spells.unique {v w : Written} {text : List Char} (hv : v.Spells text)
    (hw : w.Spells text) : v = w :=
  Option.some.inj
    ((ofChars?_eq_some_iff_spells.2 hv).symm.trans (ofChars?_eq_some_iff_spells.2 hw))

theorem Spells.exists_and_iff {w : Written} {text : List Char} (hw : w.Spells text)
    {p : Written → Prop} : (∃ v : Written, v.Spells text ∧ p v) ↔ p w := by
  constructor
  · rintro ⟨v, hv, hp⟩
    rwa [hv.unique hw] at hp
  · intro hp
    exact ⟨w, hw, hp⟩

/-! ## Texts outside the grammar -/

theorem Spells.mem_alphabet {w : Written} {text : List Char} (h : w.Spells text) {c : Char}
    (hc : c ∈ text) : ('0' ≤ c ∧ c ≤ '9') ∨ c = 'd' ∨ c = '+' ∨ c = '-' := by
  cases h with
  | plain hcount hsides =>
      simp only [List.mem_append, List.mem_cons] at hc
      rcases hc with hc | rfl | hc
      · exact .inl (hcount.2.2 c hc)
      · exact .inr (.inl rfl)
      · exact .inl (hsides.2.2 c hc)
  | signed sign hcount hsides hamount =>
      simp only [List.mem_append, List.mem_cons] at hc
      rcases hc with hc | rfl | hc | rfl | hc
      · exact .inl (hcount.2.2 c hc)
      · exact .inr (.inl rfl)
      · exact .inl (hsides.2.2 c hc)
      · cases sign
        · exact .inr (.inr (.inl rfl))
        · exact .inr (.inr (.inr rfl))
      · exact .inl (hamount.2.2 c hc)

theorem prefix_of_not_mem {run left right : List Char} {c : Char} (hc : c ∉ run)
    (h : run <+: left ++ c :: right) : run <+: left := by
  have hleft : left ++ [c] <+: left ++ c :: right := ⟨right, by simp⟩
  rcases List.prefix_or_prefix_of_prefix h hleft with hrun | hrun
  · rcases List.prefix_concat_iff.1 hrun with rfl | hrun
    · exact absurd (by simp) hc
    · exact hrun
  · exact absurd (hrun.subset (by simp)) hc

/-- A run that keeps clear of `c` lies on one side of it. -/
theorem infix_or_infix_of_not_mem {run left right : List Char} {c : Char} (hc : c ∉ run)
    (h : run <:+: left ++ c :: right) : run <:+: left ∨ run <:+: right := by
  induction left with
  | nil =>
      rcases List.infix_cons_iff.1 h with hrun | hrun
      · exact .inl (@prefix_of_not_mem _ [] _ _ hc hrun).isInfix
      · exact .inr hrun
  | cons d left ih =>
      rcases List.infix_cons_iff.1 h with hrun | hrun
      · exact .inl (@prefix_of_not_mem _ (d :: left) _ _ hc hrun).isInfix
      · rcases ih hrun with hrun | hrun
        · exact .inl (List.infix_cons hrun)
        · exact .inr hrun

theorem Spells.length_le_of_infix {w : Written} {text run : List Char} (h : w.Spells text)
    (hrun : run <:+: text) (hdigits : ∀ c ∈ run, '0' ≤ c ∧ c ≤ '9') : run.length ≤ 3 := by
  have hd : 'd' ∉ run := fun hmem ↦ absurd (hdigits _ hmem) (by decide)
  cases h with
  | plain hcount hsides =>
      rcases infix_or_infix_of_not_mem hd hrun with hin | hin
      · exact hin.length_le.trans hcount.2.1
      · exact hin.length_le.trans hsides.2.1
  | signed sign hcount hsides hamount =>
      have hsign : sign.symbol ∉ run := fun hmem ↦
        absurd (hdigits _ hmem) (by cases sign <;> decide)
      rcases infix_or_infix_of_not_mem hd hrun with hin | hin
      · exact hin.length_le.trans hcount.2.1
      · rcases infix_or_infix_of_not_mem hsign hin with hin | hin
        · exact hin.length_le.trans hsides.2.1
        · exact hin.length_le.trans (hamount.2.1.trans (by decide))

/-! ## What the parts stand for -/

theorem Denotes.unique {w : Written} {f g : Formula} (hf : w.Denotes f) (hg : w.Denotes g) :
    f = g := by
  have hcount : f.count = g.count := UInt16.toNat_inj.1 (hf.count.trans hg.count.symm)
  have hsides : f.sides = g.sides := UInt16.toNat_inj.1 (hf.sides.trans hg.sides.symm)
  have hsign : f.sign? = g.sign? := hf.sign.trans hg.sign.symm
  have hamount : f.amount? = g.amount? :=
    Option.map_injective (fun _ _ ↦ UInt8.toNat_inj.1) (hf.amount.trans hg.amount.symm)
  obtain ⟨count, sides, _ | ⟨sign, amount⟩⟩ := f <;>
    obtain ⟨count', sides', _ | ⟨sign', amount'⟩⟩ := g <;>
      simp_all [Formula.sign?, Formula.amount?]

theorem Spells.digits {w : Written} {text : List Char} (h : w.Spells text) :
    Digits 0 3 w.count ∧ Digits 1 3 w.sides ∧ ∀ s ∈ w.suffix, Digits 0 2 s.2 := by
  cases h with
  | plain hcount hsides => exact ⟨hcount, hsides, by simp⟩
  | signed sign hcount hsides hamount => exact ⟨hcount, hsides, by simpa using hamount⟩

theorem Spells.toFormula?_eq_none_iff {w : Written} {text : List Char} (h : w.Spells text) :
    w.toFormula? = none ↔ value w.sides = 0 := by
  rw [← read_eq_zero_iff h.digits.2.1 (by decide)]
  simp [toFormula?]

theorem Spells.denotes {w : Written} {text : List Char} (h : w.Spells text) {f : Formula}
    (hf : w.toFormula? = some f) : w.Denotes f := by
  obtain ⟨hcount, hsides, hamount⟩ := h.digits
  obtain ⟨count, sides, suffix⟩ := w
  simp only [toFormula?] at hf
  split at hf
  · cases hf
  · cases hf
    refine ⟨?_, toNat_read_eq_value hsides (by decide), ?_, ?_⟩
    · simp only [← value_eq_zero_iff hcount.2.2, ← read_eq_zero_iff hcount (by decide)]
      split
      · rfl
      · exact toNat_read_eq_value hcount (by decide)
    · cases suffix <;> rfl
    · cases suffix with
      | none => rfl
      | some suffix =>
          have hdigits := hamount suffix rfl
          have hlt := value_lt_pow hdigits
          have hread : (read suffix.2).toUInt8.toNat = value suffix.2 := by
            rw [UInt16.toNat_toUInt8, toNat_read_eq_value hdigits (by decide)]
            omega
          simpa [Formula.amount?] using hread

theorem Spells.toFormula?_eq_some_iff {w : Written} {text : List Char} (h : w.Spells text)
    {f : Formula} : w.toFormula? = some f ↔ value w.sides ≠ 0 ∧ w.Denotes f := by
  rw [ne_eq, ← h.toFormula?_eq_none_iff]
  constructor
  · intro hf
    exact ⟨by simp [hf], h.denotes hf⟩
  · rintro ⟨hsome, hf⟩
    obtain ⟨g, hg⟩ := Option.ne_none_iff_exists'.1 hsome
    rw [hg, (h.denotes hg).unique hf]

end Written

end Tabletop
