import Mathlib
import Tabletop.Proofs.Outcomes

/-!
# Successive rolls from one supply

Rolling a formula again and again cuts the faces of the accepted words into chunks of as many as
the formula has dice. The roll that finds too few of them takes every word that is left.
-/

namespace Tabletop

namespace Attempt

variable {σ α : Type} (x : Attempt σ α)

/-- Succeeding as a whole is keeping all the outcomes. -/
theorem result_times_eq_run_upTo (n : Nat) (s : σ) :
    (x.times n).result s =
      (if ((x.upTo n).run s).1.length = n then some ((x.upTo n).run s).1 else none,
        ((x.upTo n).run s).2) := by
  induction n generalizing s with
  | zero => simp
  | succ n ih =>
      rw [result_times_succ, run_upTo_succ]
      rcases x.result s with ⟨_ | a, t⟩
      · simp
      · simp only [ih t, List.length_cons, Nat.succ_inj]
        split_ifs <;> rfl

/-- Where outcomes are missing, the attempt failed in the state that the others led to. -/
theorem exists_failure_of_length_lt {n : Nat} {s : σ}
    (h : ((x.upTo n).run s).1.length < n) :
    ∃ t, (x.upTo ((x.upTo n).run s).1.length).run s = (((x.upTo n).run s).1, t) ∧
      x.result t = (none, ((x.upTo n).run s).2) := by
  induction n generalizing s with
  | zero => simp at h
  | succ n ih =>
      rw [run_upTo_succ] at h ⊢
      rcases hresult : x.result s with ⟨_ | a, t⟩
      · exact ⟨s, rfl, hresult⟩
      · simp only [hresult, List.length_cons, Nat.succ_lt_succ_iff] at h ⊢
        obtain ⟨u, hrun, hfailure⟩ := ih h
        refine ⟨u, ?_, hfailure⟩
        rw [run_upTo_succ, hresult]
        simp only [hrun]

end Attempt

namespace Play

/-- The results of the first `k` chunks of the faces. -/
def chunkResults (f : Formula) (faces : List Score) (k : Nat) : List Score :=
  (List.range k).map fun i ↦
    (f.settle ((faces.drop (i * f.count.toNat)).take f.count.toNat)).result

theorem chunkResults_succ (f : Formula) (faces : List Score) (k : Nat) :
    chunkResults f faces (k + 1) =
      (f.settle (faces.take f.count.toNat)).result ::
        chunkResults f (faces.drop f.count.toNat) k := by
  rw [chunkResults, List.range_succ_eq_map, List.map_cons, List.map_map, Nat.zero_mul,
    List.drop_zero, chunkResults]
  congr 1
  apply List.map_congr_left
  intro i _
  rw [Function.comp_apply, List.drop_drop, Nat.succ_mul, Nat.add_comm]

theorem run_upTo_roll {f : Formula} (hcount : 0 < f.count.toNat) (n : Nat) (table : Table) :
    ∃ after, ((roll f).upTo n).run table =
        (chunkResults f (Die.faces f.sides table.supply.pending)
          (min n ((Die.faces f.sides table.supply.pending).length / f.count.toNat)), after) ∧
      table.supply.Advances after.supply ∧
      after.supply.pending = Die.after f.sides (n * f.count.toNat) table.supply.pending := by
  induction n generalizing table with
  | zero =>
      refine ⟨table, ?_, .refl _, by simp⟩
      rw [Nat.zero_min]
      rfl
  | succ n ih =>
      obtain ⟨middle, hroll, hadvances, hmiddle⟩ := result_roll_eq f table
      rw [Attempt.run_upTo_succ, hroll]
      split_ifs with hle
      -- A roll takes the first chunk, and the later ones are the chunks of what it leaves.
      · obtain ⟨after, hrun, hafter, hpending⟩ := ih middle
        refine ⟨after, ?_, hadvances.trans hafter, ?_⟩
        · rw [hmiddle, Die.faces_after, List.length_drop] at hrun
          rw [Nat.div_eq_sub_div hcount hle, Nat.add_min_add_right, chunkResults_succ]
          simp only [hrun]
        · rw [hpending, hmiddle, Die.after_after, Nat.succ_mul, Nat.add_comm]
      · have hlt := Nat.lt_of_not_le hle
        refine ⟨middle, ?_, hadvances, ?_⟩
        · rw [Nat.div_eq_of_lt hlt, Nat.min_zero]
          rfl
        · rw [hmiddle, Die.after_eq_nil hlt, Die.after_eq_nil]
          exact hlt.trans_le (Nat.le_mul_of_pos_left _ n.succ_pos)

theorem length_chunkResults (f : Formula) (faces : List Score) (k : Nat) :
    (chunkResults f faces k).length = k := by
  rw [chunkResults, List.length_map, List.length_range]

theorem map_toNat_chunkResults {f : Formula} (hf : f.Limited) {ws : List Word} {k : Nat}
    (hk : k ≤ (Die.faces f.sides ws).length / f.count.toNat) :
    (chunkResults f (Die.faces f.sides ws) k).map UInt32.toNat =
      (List.range k).map fun i ↦
        f.exact (((((ws.filter fun w ↦ Die.Accepts f.sides w).drop (i * f.count.toNat)).take
          f.count.toNat).map (Die.faceOf f.sides)).sum) := by
  have hfaces := @Die.map_toNat_faces f.sides ws
  have hlength := @Die.length_faces f.sides ws
  generalize ws.filter (fun w ↦ Die.Accepts f.sides w) = accepted at hfaces hlength ⊢
  rw [chunkResults, List.map_map]
  apply List.map_congr_left
  intro i hi
  have hle : (i + 1) * f.count.toNat ≤ accepted.length := by
    rw [← hlength]
    exact (Nat.le_div_iff_mul_le hf.count_pos).1 ((List.mem_range.1 hi).trans_le hk)
  have hcount : ((accepted.drop (i * f.count.toNat)).take f.count.toNat).length =
      f.count.toNat := by
    rw [Nat.succ_mul] at hle
    rw [List.length_take, List.length_drop]
    omega
  have hchunk : (((Die.faces f.sides ws).drop (i * f.count.toNat)).take f.count.toNat).map
      UInt32.toNat =
        ((accepted.drop (i * f.count.toNat)).take f.count.toNat).map (Die.faceOf f.sides) := by
    rw [List.map_take, List.map_drop, hfaces, List.map_take, List.map_drop]
  have hshows := hf.shows_map_faceOf hcount
  rw [← hchunk] at hshows
  rw [Function.comp_apply, hf.toNat_settle hshows, hchunk]

/-- Rolling `n` times from one list of words cuts the accepted ones into chunks, a chunk for each
roll. Completed rolls take the words up to the last one that they need, and a roll that cannot be
completed takes all that are left. -/
theorem rolls_are_chunks {text : String} {f : Formula} (h : Formula.parse text = .ok f)
    (ws : List Word) (n : Nat) :
    let accepted := ws.filter fun w ↦ Die.Accepts f.sides w
    let completed := min n (accepted.length / f.count.toNat)
    ∃ results after, ((roll f).upTo n).run { supply := .ofWords ws } = (results, after) ∧
      results.map UInt32.toNat = ((List.range completed).map fun i ↦
        f.exact ((((accepted.drop (i * f.count.toNat)).take f.count.toNat).map
          (Die.faceOf f.sides)).sum)) ∧
      ((roll f).times n).result { supply := .ofWords ws } =
        (if completed = n then some results else none, after) ∧
      after.supply.pending = ws.drop after.supply.delivered ∧
      (completed = n →
        IsLeast {k | n * f.count.toNat ≤ ((ws.take k).filter fun w ↦ Die.Accepts f.sides w).length}
          after.supply.delivered) ∧
      (completed < n → after.supply.delivered = ws.length ∧
        ∃ before, ((roll f).upTo completed).run { supply := .ofWords ws } = (results, before) ∧
          (roll f).result before = (none, after)) := by
  intro accepted completed
  have hf := Formula.Limited.of_parse h
  have haccepted : (Die.faces f.sides ws).length = accepted.length := Die.length_faces ws
  obtain ⟨after, hrun, hadvances, hpending⟩ :=
    run_upTo_roll hf.count_pos n { supply := .ofWords ws }
  change ((roll f).upTo n).run _ =
    (chunkResults f (Die.faces f.sides ws) (min n ((Die.faces f.sides ws).length / _)), after)
    at hrun
  change after.supply.pending = Die.after f.sides _ ws at hpending
  have hlength : (((roll f).upTo n).run { supply := .ofWords ws }).1.length = completed := by
    rw [hrun, length_chunkResults, haccepted]
  have hdelivered : after.supply.delivered + after.supply.pending.length = ws.length :=
    hadvances.delivered.trans (Nat.zero_add _)
  refine ⟨_, after, hrun, ?_, ?_, hadvances.pending_eq_drop, ?_, ?_⟩
  · rw [map_toNat_chunkResults hf (Nat.min_le_right _ _), haccepted]
  · rw [Attempt.result_times_eq_run_upTo, hlength, hrun]
  · intro hall
    have hle : n * f.count.toNat ≤ (Die.faces f.sides ws).length := by
      rw [haccepted, ← Nat.le_div_iff_mul_le hf.count_pos]
      exact min_eq_left_iff.1 hall
    have hleast := Die.isLeast_length_sub_after hle
    simp only [Die.length_faces] at hleast
    rwa [← hpending, ← hdelivered, Nat.add_sub_cancel] at hleast
  · intro hsome
    have hlt : (Die.faces f.sides ws).length < n * f.count.toNat := by
      rw [haccepted, ← Nat.div_lt_iff_lt_mul hf.count_pos]
      omega
    rw [Die.after_eq_nil hlt] at hpending
    rw [hpending] at hdelivered
    obtain ⟨before, hbefore, hfailure⟩ :=
      Attempt.exists_failure_of_length_lt _ (hlength.trans_lt hsome)
    rw [hlength, hrun] at hbefore
    rw [hrun] at hfailure
    exact ⟨hdelivered, before, hbefore, hfailure⟩

theorem two_rolls_from_five_words :
    Formula.parse "2d6-3" = .ok ⟨2, 6, some ⟨.minus, 3⟩⟩ ∧
      ∃ results after,
        ((roll ⟨2, 6, some ⟨.minus, 3⟩⟩).upTo 2).run
          { supply := .ofWords [0xffffffff, 0, 0xc0000000, 0xffffffff, 0x80000000] } =
            (results, after) ∧
        results.map UInt32.toNat = [3] ∧ after.supply.delivered = 5 := by
  have hparse : Formula.parse "2d6-3" = .ok ⟨2, 6, some ⟨.minus, 3⟩⟩ := by
    simp only [Formula.parse, String.reduceToList]
    rfl
  have haccepted : [(0xffffffff : Word), 0, 0xc0000000, 0xffffffff, 0x80000000].filter
      (fun w ↦ Die.Accepts 6 w) = [0, 0xc0000000, 0x80000000] := by decide
  obtain ⟨results, after, hrun, hresults, -, -, -, hdry⟩ :=
    rolls_are_chunks hparse [0xffffffff, 0, 0xc0000000, 0xffffffff, 0x80000000] 2
  rw [haccepted] at hresults hdry
  exact ⟨hparse, results, after, hrun, hresults, (hdry (by decide)).1⟩

end Play

end Tabletop
