import Mathlib
import Tabletop.Play
import Tabletop.Proofs.Faces

/-!
# What is drawn from a list of words

A die passes over the rejected words, so all that the dice show is the list of faces of the words
still to come, read in order. What they leave of the supply is the rest of those words.
-/

namespace Tabletop

/-- `t` is `s` after some of its pending words have been delivered. -/
structure Supply.Advances (s t : Supply) : Prop where
  suffix : t.pending <:+ s.pending
  delivered : t.delivered + t.pending.length = s.delivered + s.pending.length

namespace Supply.Advances

theorem refl (s : Supply) : s.Advances s :=
  ⟨List.suffix_refl _, rfl⟩

theorem trans {s t u : Supply} (hst : s.Advances t) (htu : t.Advances u) : s.Advances u :=
  ⟨htu.suffix.trans hst.suffix, htu.delivered.trans hst.delivered⟩

theorem of_next? {s t : Supply} {w : Word} (h : s.next? = some (w, t)) : s.Advances t := by
  have hpending := pending_of_next? h
  have hdelivered := delivered_of_next? h
  refine ⟨hpending ▸ List.suffix_cons w t.pending, ?_⟩
  rw [hpending, hdelivered, List.length_cons]
  omega

/-- The words that have been delivered are those before the pending ones. -/
theorem pending_eq_drop {s t : Supply} (h : s.Advances t) :
    t.pending = s.pending.drop (t.delivered - s.delivered) := by
  obtain ⟨taken, htaken⟩ := h.suffix
  have hdelivered := h.delivered
  rw [← htaken, List.length_append] at hdelivered
  rw [← htaken, show t.delivered - s.delivered = taken.length by omega, List.drop_left]

end Supply.Advances

namespace Die

/-- The faces that a list of words shows, one for each accepted word. -/
def faces (sides : UInt16) (ws : List Word) : List Score :=
  ws.filterMap (face? sides)

/-- What follows the first `m` accepted words. -/
def after (sides : UInt16) : Nat → List Word → List Word
  | 0, ws => ws
  | _ + 1, [] => []
  | m + 1, w :: ws => if Accepts sides w then after sides m ws else after sides (m + 1) ws

variable {sides : UInt16}

theorem faces_cons_of_accepts {w : Word} (hw : Accepts sides w) (ws : List Word) :
    ∃ face, face? sides w = some face ∧ faces sides (w :: ws) = face :: faces sides ws := by
  obtain ⟨face, hface⟩ := Option.ne_none_iff_exists'.1
    (mt face?_eq_none_iff.1 (not_not_intro hw))
  exact ⟨face, hface, List.filterMap_cons_some hface⟩

theorem faces_cons_of_not_accepts {w : Word} (hw : ¬Accepts sides w) (ws : List Word) :
    faces sides (w :: ws) = faces sides ws :=
  List.filterMap_cons_none (face?_eq_none_iff.2 hw)

theorem map_toNat_faces (ws : List Word) :
    (faces sides ws).map UInt32.toNat =
      (ws.filter fun w ↦ Accepts sides w).map (faceOf sides) := by
  induction ws with
  | nil => rfl
  | cons w ws ih =>
      by_cases hw : Accepts sides w
      · obtain ⟨face, hface, hcons⟩ := faces_cons_of_accepts hw ws
        rw [hcons, List.map_cons, ih, (face?_eq_some_iff.1 hface).2,
          List.filter_cons_of_pos (by simpa using hw), List.map_cons]
      · rw [faces_cons_of_not_accepts hw, ih, List.filter_cons_of_neg (by simpa using hw)]

theorem length_faces (ws : List Word) :
    (faces sides ws).length = (ws.filter fun w ↦ Accepts sides w).length := by
  have hlength := congrArg List.length (@map_toNat_faces sides ws)
  rwa [List.length_map, List.length_map] at hlength

@[simp] theorem after_zero (ws : List Word) : after sides 0 ws = ws := by
  cases ws <;> rfl

@[simp] theorem after_nil (m : Nat) : after sides m [] = [] := by
  cases m <;> rfl

theorem after_succ_cons_of_accepts {w : Word} (hw : Accepts sides w) (m : Nat) (ws : List Word) :
    after sides (m + 1) (w :: ws) = after sides m ws := by
  rw [after, if_pos hw]

theorem after_succ_cons_of_not_accepts {w : Word} (hw : ¬Accepts sides w) (m : Nat)
    (ws : List Word) : after sides (m + 1) (w :: ws) = after sides (m + 1) ws := by
  rw [after, if_neg hw]

theorem after_suffix (m : Nat) (ws : List Word) : after sides m ws <:+ ws := by
  induction ws generalizing m with
  | nil => simp
  | cons w ws ih =>
      cases m with
      | zero => simp
      | succ m =>
          by_cases hw : Accepts sides w
          · rw [after_succ_cons_of_accepts hw]
            exact (ih m).trans (List.suffix_cons w ws)
          · rw [after_succ_cons_of_not_accepts hw]
            exact (ih (m + 1)).trans (List.suffix_cons w ws)

theorem faces_after (m : Nat) (ws : List Word) :
    faces sides (after sides m ws) = (faces sides ws).drop m := by
  induction ws generalizing m with
  | nil => simp [faces]
  | cons w ws ih =>
      cases m with
      | zero => simp
      | succ m =>
          by_cases hw : Accepts sides w
          · obtain ⟨face, -, hcons⟩ := faces_cons_of_accepts hw ws
            rw [after_succ_cons_of_accepts hw, ih, hcons, List.drop_succ_cons]
          · rw [after_succ_cons_of_not_accepts hw, ih, faces_cons_of_not_accepts hw]

theorem after_after (m n : Nat) (ws : List Word) :
    after sides n (after sides m ws) = after sides (m + n) ws := by
  induction ws generalizing m with
  | nil => simp
  | cons w ws ih =>
      cases m with
      | zero => simp
      | succ m =>
          rw [Nat.add_right_comm]
          by_cases hw : Accepts sides w
          · rw [after_succ_cons_of_accepts hw, after_succ_cons_of_accepts hw, ih]
          · rw [after_succ_cons_of_not_accepts hw, after_succ_cons_of_not_accepts hw, ih,
              Nat.add_right_comm]

theorem after_eq_nil {m : Nat} {ws : List Word} (h : (faces sides ws).length < m) :
    after sides m ws = [] := by
  induction ws generalizing m with
  | nil => simp
  | cons w ws ih =>
      obtain ⟨m, rfl⟩ := Nat.exists_eq_succ_of_ne_zero (Nat.ne_of_gt (Nat.zero_lt_of_lt h))
      by_cases hw : Accepts sides w
      · obtain ⟨face, -, hcons⟩ := faces_cons_of_accepts hw ws
        rw [hcons, List.length_cons] at h
        rw [after_succ_cons_of_accepts hw]
        exact ih (Nat.lt_of_succ_lt_succ h)
      · rw [faces_cons_of_not_accepts hw] at h
        rw [after_succ_cons_of_not_accepts hw]
        exact ih h

theorem isLeast_succ {p : Nat → Prop} {k : Nat} (hzero : ¬p 0) (h : IsLeast {j | p (j + 1)} k) :
    IsLeast {j | p j} (k + 1) := by
  refine ⟨h.1, ?_⟩
  intro j hj
  cases j with
  | zero => exact absurd hj hzero
  | succ j => exact Nat.succ_le_succ (h.2 hj)

/-- How far the first `m` accepted words reach: no shorter start of the list has as many. -/
theorem isLeast_length_sub_after {m : Nat} {ws : List Word} (h : m ≤ (faces sides ws).length) :
    IsLeast {k | m ≤ (faces sides (ws.take k)).length}
      (ws.length - (after sides m ws).length) := by
  induction ws generalizing m with
  | nil =>
      rw [after_nil, Nat.sub_self]
      exact ⟨by simpa using h, fun k _ ↦ Nat.zero_le k⟩
  | cons w ws ih =>
      cases m with
      | zero =>
          rw [after_zero, Nat.sub_self]
          exact ⟨Nat.zero_le _, fun k _ ↦ Nat.zero_le k⟩
      | succ m =>
          -- An accepted word counts for one of the words sought, and any word for one of the start.
          by_cases hw : Accepts sides w
          · have hlength := (@after_suffix sides m ws).length_le
            obtain ⟨face, -, hcons⟩ := faces_cons_of_accepts hw ws
            rw [hcons, List.length_cons, Nat.succ_le_succ_iff] at h
            rw [after_succ_cons_of_accepts hw, List.length_cons, Nat.succ_sub hlength]
            apply isLeast_succ
            · simp [faces]
            · have hset (k : Nat) : m + 1 ≤ (faces sides ((w :: ws).take (k + 1))).length ↔
                  m ≤ (faces sides (ws.take k)).length := by
                obtain ⟨face, -, hcons⟩ := faces_cons_of_accepts hw (ws.take k)
                rw [List.take_succ_cons, hcons, List.length_cons, Nat.succ_le_succ_iff]
              simpa only [hset] using ih h
          · have hlength := (@after_suffix sides (m + 1) ws).length_le
            rw [faces_cons_of_not_accepts hw] at h
            rw [after_succ_cons_of_not_accepts hw, List.length_cons, Nat.succ_sub hlength]
            apply isLeast_succ
            · simp [faces]
            · simpa only [List.take_succ_cons, faces_cons_of_not_accepts hw] using ih h

/-! ## The dice -/

theorem next?_eq (s : Supply) :
    ∃ t, next? sides s = ((faces sides s.pending).head?, t) ∧ s.Advances t ∧
      t.pending = after sides 1 s.pending := by
  -- A supply is not built up by its words, so the induction is on those that are still to come.
  generalize hws : s.pending = ws
  induction ws generalizing s with
  | nil =>
      have hdry := Supply.next?_eq_none_iff.2 hws
      exact ⟨s, next?_of_dry hdry, .refl s, hws⟩
  | cons w ws ih =>
      obtain ⟨⟨v, rest⟩, hnext⟩ : ∃ p, s.next? = some p := by
        apply Option.ne_none_iff_exists'.1
        intro hdry
        rw [Supply.next?_eq_none_iff.1 hdry] at hws
        cases hws
      have hadvances := Supply.Advances.of_next? hnext
      obtain ⟨rfl, rfl⟩ := List.cons.inj (hws.symm.trans (Supply.pending_of_next? hnext))
      by_cases hw : Accepts sides w
      · obtain ⟨face, hface, hcons⟩ := faces_cons_of_accepts hw rest.pending
        refine ⟨rest, ?_, hadvances, ?_⟩
        · rw [next?_of_accepted hnext hface, hcons, List.head?_cons]
        · rw [after_succ_cons_of_accepts hw, after_zero]
      · obtain ⟨t, hresult, ht, hpending⟩ := ih rest rfl
        refine ⟨t, ?_, hadvances.trans ht, ?_⟩
        · rw [next?_of_passed hnext (face?_eq_none_iff.2 hw), hresult,
            faces_cons_of_not_accepts hw]
        · rw [hpending, after_succ_cons_of_not_accepts hw]

theorem result_times_draw (m : Nat) (s : Supply) :
    ∃ t, ((draw sides).times m).result s =
        (if m ≤ (faces sides s.pending).length then some ((faces sides s.pending).take m)
          else none, t) ∧
      s.Advances t ∧ t.pending = after sides m s.pending := by
  induction m generalizing s with
  | zero => exact ⟨s, by simp, .refl s, by simp⟩
  | succ m ih =>
      obtain ⟨t, hnext, hst, ht⟩ := @next?_eq sides s
      rw [Attempt.result_times_succ, draw, Attempt.result_ofResult, hnext]
      cases hfaces : faces sides s.pending with
      | nil =>
          have hshort : (faces sides s.pending).length < 1 := by simp [hfaces]
          refine ⟨t, by simp, hst, ?_⟩
          rw [ht, after_eq_nil hshort, after_eq_nil (Nat.lt_add_left m hshort)]
      | cons face rest =>
          have hrest : faces sides t.pending = rest := by
            rw [ht, faces_after, hfaces, List.drop_succ_cons, List.drop_zero]
          obtain ⟨u, hresult, htu, hu⟩ := ih t
          refine ⟨u, ?_, hst.trans htu, ?_⟩
          · rw [draw, hrest] at hresult
            simp only [List.head?_cons, hresult, List.length_cons, Nat.succ_le_succ_iff,
              List.take_succ_cons]
            split_ifs <;> rfl
          · rw [hu, ht, after_after, Nat.add_comm]

end Die

/-- A roll of `f` reads as many faces as it has dice. -/
theorem Formula.result_draw (f : Formula) (s : Supply) :
    ∃ t, f.draw.result s =
        (if f.count.toNat ≤ (Die.faces f.sides s.pending).length then
          some (f.settle ((Die.faces f.sides s.pending).take f.count.toNat)) else none, t) ∧
      s.Advances t ∧ t.pending = Die.after f.sides f.count.toNat s.pending := by
  obtain ⟨t, hresult, hst, ht⟩ := @Die.result_times_draw f.sides f.count.toNat s
  refine ⟨t, ?_, hst, ht⟩
  rw [draw, Attempt.result_bind, hresult]
  split_ifs <;> rfl

theorem Play.result_roll_eq (f : Formula) (table : Table) :
    ∃ after, (roll f).result table =
        (if f.count.toNat ≤ (Die.faces f.sides table.supply.pending).length then
          some (f.settle ((Die.faces f.sides table.supply.pending).take f.count.toNat)).result
          else none, after) ∧
      table.supply.Advances after.supply ∧
      after.supply.pending = Die.after f.sides f.count.toNat table.supply.pending := by
  obtain ⟨t, hresult, hst, ht⟩ := f.result_draw table.supply
  rw [result_roll, hresult]
  split_ifs
  · exact ⟨⟨t, _⟩, rfl, hst, ht⟩
  · exact ⟨⟨t, _⟩, rfl, hst, ht⟩

end Tabletop
