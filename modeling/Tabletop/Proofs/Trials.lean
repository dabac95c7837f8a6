import Mathlib
import Tabletop.Proofs.Canonical
import Tabletop.Proofs.Fairness

/-!
# Formulas told apart by their rolls

Fewer dice are content with fewer words, and dice with other sides reject other words. The roll in
which every die shows its highest face tells two adjustments apart, unless both leave nothing. So
formulas that roll alike are equal, but for those that always come to zero.
-/

namespace Tabletop

/-! ## The words that a die rejects -/

namespace Die

variable {sides : UInt16}

theorem accepts_zero (sides : UInt16) : Accepts sides 0 := by
  rw [Accepts, UInt32.toNat_zero, Nat.zero_mul, Nat.zero_mod]
  exact Nat.zero_le _

/-- The words below a power of two are accepted, and that power is not. -/
theorem isLeast_rejected (hsides : sides.toNat ≠ 0) :
    IsLeast {n | ¬Accepts sides (UInt32.ofNat n)} (2 ^ leadingZeros sides) := by
  have hwindow := (sides_mul_two_pow_mem hsides).2
  have haccepts {n : Nat} (hn : n ≤ 2 ^ leadingZeros sides) :
      Accepts sides (UInt32.ofNat n) ↔ n < 2 ^ leadingZeros sides := by
    have hproduct : n * sides.toNat ≤ sides.toNat * 2 ^ leadingZeros sides := by
      rw [Nat.mul_comm]
      exact Nat.mul_le_mul_left _ hn
    have hword : n ≤ n * sides.toNat := Nat.le_mul_of_pos_right n (Nat.pos_of_ne_zero hsides)
    have hpos : 0 < sides.toNat * 2 ^ leadingZeros sides := by positivity
    rw [Accepts, UInt32.toNat_ofNat_of_lt' (hword.trans_lt (hproduct.trans_lt hwindow)),
      Nat.mod_eq_of_lt (hproduct.trans_lt hwindow), Nat.shiftLeft_eq, Nat.le_sub_one_iff_lt hpos,
      Nat.mul_comm, Nat.mul_lt_mul_left (Nat.pos_of_ne_zero hsides)]
  constructor
  · exact (haccepts le_rfl).not.2 (lt_irrefl _)
  · intro n hn
    by_contra hlt
    exact hn ((haccepts (not_le.1 hlt).le).2 (not_le.1 hlt))

theorem ncard_accepts (hsides : 0 < sides.toNat) :
    {w | Accepts sides w}.ncard = 2 ^ leadingZeros sides * sides.toNat := by
  have hwords (w : Word) : {v : Word | id v = w}.ncard = 2 ^ 0 := by
    rw [pow_zero, ← Set.ncard_singleton w]
    rfl
  exact ncard_accepted hsides hwords

/-- The first rejected word gives the leading zeros of the sides, and the number of accepted words
the sides themselves. -/
theorem eq_of_accepts_iff {m n : UInt16} (hm : 0 < m.toNat) (hn : 0 < n.toNat)
    (h : ∀ w, Accepts m w ↔ Accepts n w) : m = n := by
  have hrejected : {k | ¬Accepts m (UInt32.ofNat k)} = {k | ¬Accepts n (UInt32.ofNat k)} := by
    ext k
    exact (h _).not
  have hleast := isLeast_rejected hm.ne'
  rw [hrejected] at hleast
  have hpow : 2 ^ leadingZeros m = 2 ^ leadingZeros n := hleast.unique (isLeast_rejected hn.ne')
  have hcount : {w | Accepts m w}.ncard = {w | Accepts n w}.ncard := by
    simp only [h]
  rw [ncard_accepts hm, ncard_accepts hn, hpow] at hcount
  exact UInt16.toNat_inj.1 (Nat.eq_of_mul_eq_mul_left (by positivity) hcount)

end Die

/-! ## Equal formulas -/

theorem Adjustment.apply_of_amount_eq_zero {a : Adjustment} (h : a.amount = 0) (sum : Score) :
    a.apply sum = sum := by
  obtain ⟨_ | _, amount⟩ := a
  · obtain rfl := h
    exact UInt32.add_zero sum
  · obtain rfl := h
    change (if sum ≤ 0 then 0 else sum - 0) = sum
    split_ifs with hle
    · exact (UInt32.le_zero_iff.1 hle).symm
    · exact UInt32.sub_zero sum

namespace Formula

variable {f g : Formula}

/-- An adjustment tells, or there is none, or it is zero. -/
theorem adjustment_cases (f : Formula) :
    f.adjustment = f.effective ∨
      f.effective = none ∧ ∃ a, f.adjustment = some a ∧ a.amount = 0 := by
  cases hadjustment : f.adjustment with
  | none =>
      left
      rw [effective, hadjustment, Option.filter_none]
  | some a =>
      by_cases hzero : a.amount = 0
      · refine .inr ⟨effective_eq_none_iff.2 (.inr ?_), a, rfl, hzero⟩
        rw [amount?, hadjustment, Option.map_some, hzero]
      · exact .inl (effective_eq_some_iff.2 ⟨hadjustment, hzero⟩).symm

theorem adjust_trimmed (f : Formula) (sum : Score) : f.trimmed.adjust sum = f.adjust sum := by
  unfold adjust
  rw [trimmed]
  rcases f.adjustment_cases with h | ⟨hnone, a, ha, hzero⟩
  · rw [h]
  · rw [hnone, ha]
    exact (Adjustment.apply_of_amount_eq_zero hzero sum).symm

theorem exact_trimmed (f : Formula) (sum : Nat) : f.trimmed.exact sum = f.exact sum := by
  unfold exact
  rw [trimmed]
  rcases f.adjustment_cases with h | ⟨hnone, ⟨sign, amount⟩, ha, hzero⟩
  · rw [h]
  · obtain rfl := hzero
    rw [hnone, ha]
    cases sign <;> rfl

theorem draw_trimmed (f : Formula) : f.trimmed.draw = f.draw := by
  have hsettle : f.trimmed.settle = f.settle := by
    funext faces
    rw [settle, settle, adjust_trimmed]
  rw [draw, draw, hsettle]
  rfl

/-- Equal formulas are rolled in the same way, down to the entries of the journal. -/
theorem roll_congr (h : (f == g) = true) : Play.roll f = Play.roll g := by
  have hdraw : f.draw = g.draw := by
    rw [← f.draw_trimmed, ← g.draw_trimmed, trimmed_eq_trimmed_iff.2 h]
  rw [Play.roll, Play.roll, hdraw, canonical_congr h]

/-! ## Trials -/

/-- What rolling from a list of words comes to: the result, if the words suffice for it, and how
many of them are taken. -/
def trial (f : Formula) (ws : List Word) : Option Score × Nat :=
  let (result, table) := (Play.roll f).result { supply := .ofWords ws }
  (result, table.supply.delivered)

/-- The formula takes away at least what its dice can add up to. -/
def TakesAll (f : Formula) : Prop :=
  ∃ amount, f.adjustment = some ⟨.minus, amount⟩ ∧ f.count.toNat * f.sides.toNat ≤ amount.toNat

theorem trial_snd (f : Formula) (ws : List Word) :
    (f.trial ws).2 = ws.length - (Die.after f.sides f.count.toNat ws).length := by
  obtain ⟨table, hroll, hadvances, hpending⟩ := Play.result_roll_eq f { supply := .ofWords ws }
  have hdelivered : table.supply.delivered + table.supply.pending.length = ws.length :=
    hadvances.delivered.trans (Nat.zero_add _)
  change table.supply.pending = Die.after f.sides f.count.toNat ws at hpending
  rw [trial, hroll, ← hpending, ← hdelivered, Nat.add_sub_cancel]

theorem resultFrom_eq_of_trial_eq {ws : List Word} (h : f.trial ws = g.trial ws) :
    f.resultFrom (.ofWords ws) = g.resultFrom (.ofWords ws) :=
  congrArg (fun t ↦ t.1.map UInt32.toNat) h

/-- Dice of one number and with equal sides take the same words, so only results are to be
compared. -/
theorem trial_eq_of_resultFrom_eq (hcount : f.count = g.count) (hsides : f.sides = g.sides)
    {ws : List Word} (h : f.resultFrom (.ofWords ws) = g.resultFrom (.ofWords ws)) :
    f.trial ws = g.trial ws := by
  refine Prod.ext (Option.map_injective (fun _ _ ↦ UInt32.toNat_inj.1) h) ?_
  rw [trial_snd, trial_snd, hcount, hsides]

theorem facesFrom_congr (hcount : f.count = g.count) (hsides : f.sides = g.sides) :
    f.facesFrom = g.facesFrom := by
  funext s
  rw [facesFrom, facesFrom, hcount, hsides]

/-- One word over and over completes a roll when it is accepted and comes often enough. -/
theorem Limited.isSome_resultFrom_replicate (hf : f.Limited) (n : Nat) (w : Word) :
    (f.resultFrom (.ofWords (List.replicate n w))).isSome = true ↔
      Die.Accepts f.sides w ∧ f.count.toNat ≤ n := by
  have hcount := hf.count_pos
  have hpending : (Supply.ofWords (List.replicate n w)).pending = List.replicate n w := rfl
  rw [hf.resultFrom_eq, Option.isSome_map, facesFrom_eq, hpending, List.filter_replicate]
  by_cases hw : Die.Accepts f.sides w
  · by_cases hle : f.count.toNat ≤ n <;> simp [hw, hle]
  · simp [hw, hcount.ne']

theorem count_and_sides_eq_of_trials (hf : f.Limited) (hg : g.Limited)
    (h : ∀ ws, f.trial ws = g.trial ws) : f.count = g.count ∧ f.sides = g.sides := by
  have hcompletes (n : Nat) (w : Word) : Die.Accepts f.sides w ∧ f.count.toNat ≤ n ↔
      Die.Accepts g.sides w ∧ g.count.toNat ≤ n := by
    rw [← hf.isSome_resultFrom_replicate, ← hg.isSome_resultFrom_replicate,
      resultFrom_eq_of_trial_eq (h _)]
  have hle := ((hcompletes g.count.toNat 0).2 ⟨Die.accepts_zero _, le_rfl⟩).2
  have hge := ((hcompletes f.count.toNat 0).1 ⟨Die.accepts_zero _, le_rfl⟩).2
  have hcount : f.count = g.count := UInt16.toNat_inj.1 (le_antisymm hle hge)
  refine ⟨hcount, Die.eq_of_accepts_iff hf.sides_pos hg.sides_pos fun w ↦ ?_⟩
  have hw := hcompletes f.count.toNat w
  rw [← hcount] at hw
  simpa using hw

/-! ## Adjustments told apart -/

/-- The three ways of an adjustment that tells, each with the results that it makes. -/
theorem effective_cases (f : Formula) :
    (f.effective = none ∧ ∀ sum, f.exact sum = sum) ∨
      (∃ a, f.effective = some ⟨.plus, a⟩ ∧ 0 < a.toNat ∧ ∀ sum, f.exact sum = sum + a.toNat) ∨
      ∃ a, f.effective = some ⟨.minus, a⟩ ∧ 0 < a.toNat ∧ ∀ sum, f.exact sum = sum - a.toNat := by
  cases heffective : f.effective with
  | none =>
      left
      refine ⟨rfl, fun sum ↦ ?_⟩
      rw [← exact_trimmed, exact, trimmed, heffective]
  | some a =>
      have hexact (sum : Nat) : f.exact sum = a.exact sum := by
        rw [← exact_trimmed, exact, trimmed, heffective]
      have hpos := amount_pos_of_effective heffective
      obtain ⟨sign, amount⟩ := a
      cases sign with
      | plus => exact .inr (.inl ⟨amount, rfl, hpos, hexact⟩)
      | minus => exact .inr (.inr ⟨amount, rfl, hpos, hexact⟩)

/-- Where all dice show their highest face, formulas come to the same only if both add the same,
take away the same, or have nothing left. -/
theorem effective_eq_or_takesAll (hcount : f.count = g.count) (hsides : f.sides = g.sides)
    (hpos : 0 < f.count.toNat * f.sides.toNat)
    (h : f.exact (f.count.toNat * f.sides.toNat) = g.exact (f.count.toNat * f.sides.toNat)) :
    f.effective = g.effective ∨ f.TakesAll ∧ g.TakesAll := by
  have hhigh : f.count.toNat * f.sides.toNat = g.count.toNat * g.sides.toNat := by
    rw [hcount, hsides]
  rcases f.effective_cases with ⟨hf, hfx⟩ | ⟨a, hf, ha, hfx⟩ | ⟨a, hf, ha, hfx⟩ <;>
    rcases g.effective_cases with ⟨hg, hgx⟩ | ⟨b, hg, hb, hgx⟩ | ⟨b, hg, hb, hgx⟩ <;>
      rw [hfx, hgx] at h
  case inl.inl => exact .inl (hf.trans hg.symm)
  case inr.inl.inr.inl =>
    obtain rfl : a = b := UInt8.toNat_inj.1 (Nat.add_left_cancel h)
    exact .inl (hf.trans hg.symm)
  case inr.inr.inr.inr =>
    -- What is left of the highest sum is the same, and so is what was taken, or nothing is left.
    rcases Nat.lt_or_ge a.toNat (f.count.toNat * f.sides.toNat) with hlt | hge
    · obtain rfl : a = b := UInt8.toNat_inj.1 (by omega)
      exact .inl (hf.trans hg.symm)
    · exact .inr ⟨⟨a, (effective_eq_some_iff.1 hf).1, hge⟩,
        ⟨b, (effective_eq_some_iff.1 hg).1, by omega⟩⟩
  all_goals omega

theorem exact_highest_eq_of_trials (hf : f.Limited) (hg : g.Limited) (hcount : f.count = g.count)
    (hsides : f.sides = g.sides) (h : ∀ ws, f.trial ws = g.trial ws) :
    f.exact (f.count.toNat * f.sides.toNat) = g.exact (f.count.toNat * f.sides.toNat) := by
  have hshows : f.Shows (List.replicate f.count.toNat f.sides.toNat) := by
    refine ⟨List.length_replicate, ?_⟩
    intro face hface
    rw [List.eq_of_mem_replicate hface]
    exact ⟨hf.sides_pos, le_rfl⟩
  obtain ⟨ws, hws⟩ := hshows.exists_words
  have hresults := resultFrom_eq_of_trial_eq (h ws)
  rw [hf.resultFrom_eq, hg.resultFrom_eq, ← facesFrom_congr hcount hsides, hws, Option.map_some,
    Option.map_some, List.sum_replicate, smul_eq_mul] at hresults
  exact Option.some.inj hresults

theorem TakesAll.exact_eq_zero (h : f.TakesAll) {sum : Nat}
    (hsum : sum ≤ f.count.toNat * f.sides.toNat) : f.exact sum = 0 := by
  obtain ⟨amount, hadjustment, hle⟩ := h
  rw [exact, hadjustment]
  exact Nat.sub_eq_zero_of_le (hsum.trans hle)

theorem TakesAll.resultFrom_eq (hf : f.Limited) (h : f.TakesAll) (s : Supply) :
    f.resultFrom s = (f.facesFrom s).map fun _ ↦ 0 := by
  rw [hf.resultFrom_eq]
  apply Option.map_congr
  intro faces hfaces
  exact h.exact_eq_zero (hf.shows_of_facesFrom hfaces).sum_mem_Icc.2

/-- Formulas roll alike, in results and in words taken, when they are equal, or when they have the
same dice and both take all away, so that they come to zero. No roll tells equal formulas apart, and
some list of words tells other dice apart. -/
theorem trials_tell_formulas_apart {a b : String} (ha : parse a = .ok f) (hb : parse b = .ok g) :
    ((∀ ws, f.trial ws = g.trial ws) ↔
      (f == g) = true ∨ (f.count = g.count ∧ f.sides = g.sides ∧ f.TakesAll ∧ g.TakesAll)) ∧
    ((f == g) = true → Play.roll f = Play.roll g) ∧
    (f.count ≠ g.count ∨ f.sides ≠ g.sides → ∃ ws, f.trial ws ≠ g.trial ws) ∧
    (f.TakesAll → ∀ ws v, (f.trial ws).1 = some v → v = 0) := by
  have hf := Limited.of_parse ha
  have hg := Limited.of_parse hb
  refine ⟨⟨?_, ?_⟩, roll_congr, ?_, ?_⟩
  · intro halike
    obtain ⟨hcount, hsides⟩ := count_and_sides_eq_of_trials hf hg halike
    have hhighest := exact_highest_eq_of_trials hf hg hcount hsides halike
    have hpos : 0 < f.count.toNat * f.sides.toNat := Nat.mul_pos hf.count_pos hf.sides_pos
    rcases effective_eq_or_takesAll hcount hsides hpos hhighest with heffective | ⟨hfall, hgall⟩
    · exact .inl (beq_iff.2 ⟨hcount, hsides, heffective⟩)
    · exact .inr ⟨hcount, hsides, hfall, hgall⟩
  · rintro (hequal | ⟨hcount, hsides, hfall, hgall⟩) ws
    · rw [trial, trial, roll_congr hequal]
    · apply trial_eq_of_resultFrom_eq hcount hsides
      rw [hfall.resultFrom_eq hf, hgall.resultFrom_eq hg, facesFrom_congr hcount hsides]
  · intro hdice
    by_contra hnone
    push Not at hnone
    obtain ⟨hcount, hsides⟩ := count_and_sides_eq_of_trials hf hg hnone
    exact hdice.elim (absurd hcount) (absurd hsides)
  · intro hall ws v hv
    have hresult : f.resultFrom (.ofWords ws) = some v.toNat :=
      congrArg (Option.map UInt32.toNat) hv
    rw [hall.resultFrom_eq hf] at hresult
    obtain ⟨-, -, hzero⟩ := Option.map_eq_some_iff.1 hresult
    exact UInt32.toNat_inj.1 hzero.symm

theorem two_ways_to_take_all :
    parse "1d6-10" = .ok ⟨1, 6, some ⟨.minus, 10⟩⟩ ∧ parse "d6-6" = .ok ⟨1, 6, some ⟨.minus, 6⟩⟩ ∧
      parse "2d6" = .ok ⟨2, 6, none⟩ ∧
      (∀ ws, trial ⟨1, 6, some ⟨.minus, 10⟩⟩ ws = trial ⟨1, 6, some ⟨.minus, 6⟩⟩ ws) ∧
      ∃ ws, trial ⟨1, 6, some ⟨.minus, 10⟩⟩ ws ≠ trial ⟨2, 6, none⟩ ws := by
  have hten : parse "1d6-10" = .ok ⟨1, 6, some ⟨.minus, 10⟩⟩ := by
    simp only [parse, String.reduceToList]
    rfl
  have hsix : parse "d6-6" = .ok ⟨1, 6, some ⟨.minus, 6⟩⟩ := by
    simp only [parse, String.reduceToList]
    rfl
  have htwo : parse "2d6" = .ok ⟨2, 6, none⟩ := by
    simp only [parse, String.reduceToList]
    rfl
  refine ⟨hten, hsix, htwo, (trials_tell_formulas_apart hten hsix).1.2 (.inr ?_),
    (trials_tell_formulas_apart hten htwo).2.2.1 (.inl (by decide))⟩
  exact ⟨rfl, rfl, ⟨10, rfl, by decide⟩, ⟨6, rfl, by decide⟩⟩

end Formula

end Tabletop
