import Mathlib
import Tabletop.Proofs.Draws
import Tabletop.Proofs.Exact

/-!
# The results that a roll can have

The dice can add up to anything from their number to the number of all their sides, and the
adjustment takes this stretch of sums to the stretch between the bounds, without a gap.
-/

namespace Tabletop.Formula

variable {f : Formula}

/-- What the dice of a formula show when they are drawn from a supply. -/
def facesFrom (f : Formula) (s : Supply) : Option (List Nat) :=
  (((Die.draw f.sides).times f.count.toNat).result s).1.map (List.map UInt32.toNat)

/-- The result of a roll, if the supply lets it be completed. -/
def resultFrom (f : Formula) (s : Supply) : Option Nat :=
  ((Play.roll f).result { supply := s }).1.map UInt32.toNat

theorem facesFrom_eq (f : Formula) (s : Supply) :
    f.facesFrom s =
      let accepted := s.pending.filter fun w ↦ Die.Accepts f.sides w
      if f.count.toNat ≤ accepted.length then
        some ((accepted.take f.count.toNat).map (Die.faceOf f.sides)) else none := by
  obtain ⟨t, hresult, -⟩ := @Die.result_times_draw f.sides f.count.toNat s
  rw [facesFrom, hresult, Die.length_faces]
  dsimp only
  split_ifs
  · rw [Option.map_some, List.map_take, Die.map_toNat_faces, List.map_take]
  · rfl

theorem Limited.shows_map_faceOf (hf : f.Limited) {ws : List Word}
    (hlength : ws.length = f.count.toNat) : f.Shows (ws.map (Die.faceOf f.sides)) := by
  refine ⟨by rw [List.length_map, hlength], ?_⟩
  intro face hface
  obtain ⟨w, -, rfl⟩ := List.mem_map.1 hface
  exact Die.faceOf_mem_Icc hf.sides_pos w

theorem Limited.shows_of_facesFrom (hf : f.Limited) {s : Supply} {faces : List Nat}
    (h : f.facesFrom s = some faces) : f.Shows faces := by
  rw [facesFrom_eq] at h
  dsimp only at h
  split_ifs at h with hle
  obtain rfl := Option.some.inj h
  apply hf.shows_map_faceOf
  rw [List.length_take, Nat.min_eq_left hle]

/-- A roll comes to the adjusted sum of the faces that are drawn for it. -/
theorem Limited.resultFrom_eq (hf : f.Limited) (s : Supply) :
    f.resultFrom s = (f.facesFrom s).map fun faces ↦ f.exact faces.sum := by
  obtain ⟨t, hfaces, -⟩ := @Die.result_times_draw f.sides f.count.toNat s
  obtain ⟨after, hroll, -⟩ := Play.result_roll_eq f { supply := s }
  have hshows (faces : List Nat) (h : f.facesFrom s = some faces) : f.Shows faces :=
    hf.shows_of_facesFrom h
  rw [facesFrom, hfaces] at hshows ⊢
  rw [resultFrom, hroll]
  dsimp only at hshows ⊢
  split_ifs at hshows ⊢
  · rw [Option.map_some, Option.map_some, Option.map_some, hf.toNat_settle (hshows _ rfl)]
  · rfl

/-! ## Every result between the bounds -/

theorem exists_faces_of_sum {sides n sum : Nat} (hsides : 0 < sides)
    (hsum : sum ∈ Set.Icc n (n * sides)) :
    ∃ faces : List Nat, faces.length = n ∧ (∀ face ∈ faces, face ∈ Set.Icc 1 sides) ∧
      faces.sum = sum := by
  induction n generalizing sum with
  | zero =>
      refine ⟨[], rfl, by simp, ?_⟩
      have hle := hsum.2
      rw [Nat.zero_mul] at hle
      exact (Nat.le_zero.1 hle).symm
  | succ n ih =>
      -- The first die takes what the others cannot, and at least its least face.
      obtain ⟨hlow, hhigh⟩ := hsum
      rw [Nat.succ_mul] at hhigh
      have hn : n ≤ n * sides := Nat.le_mul_of_pos_right n hsides
      have hrest : sum - max 1 (sum - n * sides) ∈ Set.Icc n (n * sides) := by
        constructor <;> omega
      obtain ⟨faces, hlength, hfaces, hfacesSum⟩ := ih hrest
      refine ⟨max 1 (sum - n * sides) :: faces, by rw [List.length_cons, hlength], ?_, ?_⟩
      · rw [List.forall_mem_cons]
        refine ⟨?_, hfaces⟩
        constructor <;> omega
      · rw [List.sum_cons, hfacesSum]
        omega

/-- No result between two others is left out, not even where taking away stops at zero. -/
theorem exists_sum_of_exact (f : Formula) {low high v : Nat} (hle : low ≤ high)
    (hv : v ∈ Set.Icc (f.exact low) (f.exact high)) :
    ∃ sum ∈ Set.Icc low high, f.exact sum = v := by
  obtain ⟨hlow, hhigh⟩ := hv
  rcases f.exact_cases with hexact | ⟨a, hexact⟩ | ⟨a, hexact⟩
  · rw [hexact] at hlow hhigh
    exact ⟨v, ⟨hlow, hhigh⟩, hexact v⟩
  · rw [hexact] at hlow hhigh
    refine ⟨v - a, ⟨by omega, by omega⟩, ?_⟩
    rw [hexact]
    omega
  · rw [hexact] at hlow hhigh
    rcases Nat.eq_zero_or_pos v with rfl | hpos
    · refine ⟨low, ⟨le_rfl, hle⟩, ?_⟩
      rw [hexact]
      omega
    · refine ⟨v + a, ⟨by omega, by omega⟩, ?_⟩
      rw [hexact, Nat.add_sub_cancel]

/-- As many words as there are dice, and all of them accepted. -/
structure Accepts (f : Formula) (ws : List Word) : Prop where
  length : ws.length = f.count.toNat
  accepts : ∀ w ∈ ws, Die.Accepts f.sides w

theorem Accepts.facesFrom_eq {s : Supply} (h : f.Accepts s.pending) :
    f.facesFrom s = some (s.pending.map (Die.faceOf f.sides)) := by
  have hfilter : s.pending.filter (fun w ↦ Die.Accepts f.sides w) = s.pending := by
    rw [List.filter_eq_self]
    intro w hw
    exact decide_eq_true (h.accepts w hw)
  rw [Formula.facesFrom_eq, hfilter]
  dsimp only
  rw [if_pos h.length.ge, ← h.length, List.take_length]

theorem exists_words_of_faces {sides : UInt16} {faces : List Nat}
    (hfaces : ∀ face ∈ faces, face ∈ Set.Icc 1 sides.toNat) :
    ∃ ws : List Word, (∀ w ∈ ws, Die.Accepts sides w) ∧ ws.map (Die.faceOf sides) = faces := by
  induction faces with
  | nil => exact ⟨[], by simp, rfl⟩
  | cons face faces ih =>
      obtain ⟨hface, hfaces⟩ := List.forall_mem_cons.1 hfaces
      obtain ⟨w, hw, hwface⟩ := Die.exists_word_of_face hface
      obtain ⟨ws, hws, hwsfaces⟩ := ih hfaces
      exact ⟨w :: ws, List.forall_mem_cons.2 ⟨hw, hws⟩, by rw [List.map_cons, hwface, hwsfaces]⟩

/-- Some words show any faces that the dice have. -/
theorem Shows.exists_words {faces : List Nat} (h : f.Shows faces) :
    ∃ ws, f.facesFrom (.ofWords ws) = some faces := by
  obtain ⟨ws, haccepts, rfl⟩ := exists_words_of_faces h.mem_Icc
  have hlength := h.length
  rw [List.length_map] at hlength
  exact ⟨ws, Accepts.facesFrom_eq (s := .ofWords ws) ⟨hlength, haccepts⟩⟩

/-- The results of a formula are all the numbers from its least roll to its greatest, and no
others, whatever supply they come from. -/
theorem results_fill_bounds {text : String} (h : parse text = .ok f) :
    {v | ∃ ws, f.resultFrom (.ofWords ws) = some v} = Set.Icc f.minRoll.toNat f.maxRoll.toNat ∧
      ∀ s v, f.resultFrom s = some v → v ∈ Set.Icc f.minRoll.toNat f.maxRoll.toNat := by
  have hf := Limited.of_parse h
  have hsound (s : Supply) (v : Nat) (hv : f.resultFrom s = some v) :
      v ∈ Set.Icc f.minRoll.toNat f.maxRoll.toNat := by
    rw [hf.resultFrom_eq] at hv
    obtain ⟨faces, hfaces, rfl⟩ := Option.map_eq_some_iff.1 hv
    obtain ⟨hlow, hhigh⟩ := (hf.shows_of_facesFrom hfaces).sum_mem_Icc
    rw [hf.toNat_minRoll, hf.toNat_maxRoll]
    exact ⟨f.exact_mono hlow, f.exact_mono hhigh⟩
  refine ⟨Set.Subset.antisymm ?_ ?_, hsound⟩
  · rintro v ⟨ws, hv⟩
    exact hsound _ v hv
  · intro v hv
    rw [hf.toNat_minRoll, hf.toNat_maxRoll] at hv
    have hle : f.count.toNat ≤ f.count.toNat * f.sides.toNat :=
      Nat.le_mul_of_pos_right _ hf.sides_pos
    obtain ⟨sum, hsum, rfl⟩ := f.exists_sum_of_exact hle hv
    obtain ⟨faces, hlength, hmem, rfl⟩ := exists_faces_of_sum hf.sides_pos hsum
    obtain ⟨ws, hws⟩ := Shows.exists_words ⟨hlength, hmem⟩
    refine ⟨ws, ?_⟩
    rw [hf.resultFrom_eq, hws, Option.map_some]

theorem results_of_two_dice_less_four :
    parse "2d6-4" = .ok ⟨2, 6, some ⟨.minus, 4⟩⟩ ∧
      {v | ∃ ws, resultFrom ⟨2, 6, some ⟨.minus, 4⟩⟩ (.ofWords ws) = some v} = Set.Icc 0 8 := by
  have hparse : parse "2d6-4" = .ok ⟨2, 6, some ⟨.minus, 4⟩⟩ := by
    simp only [Formula.parse, String.reduceToList]
    rfl
  exact ⟨hparse, (results_fill_bounds hparse).1⟩

end Tabletop.Formula
