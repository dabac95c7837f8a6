import Mathlib
import Tabletop.Proofs.Members
import Tabletop.Proofs.Trials
import Tabletop.Session

/-!
# Sessions with equal formulas

Sessions are alike when they hold equal formulas in the same places, next to the same table. Equal
formulas differ only in a zero adjustment as it was written, so no command tells alike sessions
apart by anything else, and each leaves them alike.
-/

namespace Tabletop

namespace Formula

variable {f g : Formula}

/-- What a formula tells of itself, but for a zero adjustment as it was written. -/
structure Profile where
  count : UInt16
  sides : UInt16
  effective : Option Adjustment
  canonical : String
  minRoll : Score
  maxRoll : Score

def profile (f : Formula) : Profile where
  count := f.count
  sides := f.sides
  effective := f.effective
  canonical := f.canonical
  minRoll := f.minRoll
  maxRoll := f.maxRoll

theorem profile_trimmed (f : Formula) : f.trimmed.profile = f.profile := by
  have hall (face : Score) : f.trimmed.resultOfAll face = f.resultOfAll face :=
    f.adjust_trimmed _
  have heffective : f.trimmed.effective = f.effective := (beq_iff.1 f.trimmed_beq).2.2
  rw [profile, profile, canonical_congr f.trimmed_beq, heffective, minRoll, maxRoll, hall, hall]
  rfl

theorem Limited.beq_of_parse_canonical (hf : f.Limited)
    (hread : parse f.canonical = .ok g) : (g == f) = true := by
  rw [hf.parse_canonical] at hread
  obtain rfl := Except.ok.inj hread
  exact f.trimmed_beq

theorem profile_congr (h : (f == g) = true) : f.profile = g.profile := by
  rw [← f.profile_trimmed, ← g.profile_trimmed, trimmed_eq_trimmed_iff.2 h]

end Formula

/-- The answers are the same, but for zero adjustments as they were written and for the order of the
members, which goes by them. -/
inductive Answer.Alike : Answer → Answer → Prop
  | same (a : Answer) : Alike a a
  | formula {f g : Formula} (h : f.profile = g.profile) : Alike (.formula f) (.formula g)
  | found {f? g? : Option Formula} (h : f?.map Formula.profile = g?.map Formula.profile) :
      Alike (.found f?) (.found g?)
  | members {fs gs : List Formula} (h : (fs.map Formula.profile).Perm (gs.map Formula.profile)) :
      Alike (.members fs) (.members gs)

structure Account.Alike (a b : Account Answer) : Prop where
  outcome : a.outcome.Alike b.outcome
  delivered : a.delivered = b.delivered
  entries : a.entries = b.entries

/-! ## Collections with equal members -/

namespace Collection

variable {c d : Collection} {f g : Formula}

theorem contains_insert (c : Collection) (f g : Formula) :
    (c.insert f).contains g = (f == g || c.contains g) :=
  Std.HashSet.contains_insert

theorem contains_erase (c : Collection) (f g : Formula) :
    (c.erase f).contains g = (!(f == g) && c.contains g) :=
  Std.HashSet.contains_erase

theorem contains_replace (c : Collection) (f g : Formula) :
    (c.replace f).contains g = (f == g || c.contains g) := by
  rw [replace, contains_insert, contains_erase]
  cases f == g <;> rfl

theorem map_profile_get? (c : Collection) (f : Formula) :
    (c.get? f).map Formula.profile = if c.contains f then some f.profile else none := by
  rw [contains_eq_isSome_get?]
  cases h : c.get? f with
  | none => rfl
  | some g => exact congrArg some (Formula.profile_congr (beq_of_get? h))

/-- Collections contain the same formulas when they hold equal ones. -/
def Alike (c d : Collection) : Prop :=
  ∀ f, c.contains f = d.contains f

theorem mem_map_trimmed_iff :
    f ∈ c.toList.map Formula.trimmed ↔ f.trimmed = f ∧ c.contains f = true := by
  rw [List.mem_map]
  constructor
  · rintro ⟨g, hg, rfl⟩
    refine ⟨g.trimmed_trimmed, ?_⟩
    rw [contains_congr g.trimmed_beq, contains_of_mem_toList hg]
  · rintro ⟨htrimmed, hf⟩
    rw [contains_eq_isSome_get?, Option.isSome_iff_exists] at hf
    obtain ⟨g, hg⟩ := hf
    refine ⟨g, mem_toList_of_get? hg, ?_⟩
    rw [Formula.trimmed_eq_trimmed_iff.2 (beq_of_get? hg), htrimmed]

theorem Alike.perm_trimmed (h : c.Alike d) :
    (c.toList.map Formula.trimmed).Perm (d.toList.map Formula.trimmed) := by
  have hnodup (c : Collection) : (c.toList.map Formula.trimmed).Nodup := by
    rw [List.Nodup, List.pairwise_map]
    refine c.distinct_toList.imp ?_
    intro f g hne heq
    rw [Formula.trimmed_eq_trimmed_iff.1 heq] at hne
    cases hne
  rw [List.perm_ext_iff_of_nodup (hnodup c) (hnodup d)]
  intro f
  rw [mem_map_trimmed_iff, mem_map_trimmed_iff, h f]

theorem Alike.perm_profile (h : c.Alike d) :
    (c.toList.map Formula.profile).Perm (d.toList.map Formula.profile) := by
  have hprofile (c : Collection) :
      c.toList.map Formula.profile = (c.toList.map Formula.trimmed).map Formula.profile := by
    rw [List.map_map]
    exact List.map_congr_left fun f _ ↦ f.profile_trimmed.symm
  rw [hprofile, hprofile]
  exact h.perm_trimmed.map _

theorem Alike.perform (h : c.Alike d) (hfg : (f == g) = true) (op : Operation) :
    (Answer.ofReply (c.perform f op).1).Alike (.ofReply (d.perform g op).1) ∧
      (c.perform f op).2.Alike (d.perform g op).2 := by
  have hcontains : c.contains f = d.contains g := (h f).trans (contains_congr hfg)
  have hfound : (c.get? f).map Formula.profile = (d.get? g).map Formula.profile := by
    rw [map_profile_get?, map_profile_get?, hcontains, Formula.profile_congr hfg]
  have hbeq (x : Formula) : (f == x) = (g == x) := BEq.congr_left hfg
  cases op with
  | insert =>
      rw [Collection.perform, Collection.perform, hcontains]
      refine ⟨.same _, fun x ↦ ?_⟩
      rw [contains_insert, contains_insert, hbeq, h x]
  | replace =>
      refine ⟨.found hfound, fun x ↦ ?_⟩
      rw [Collection.perform, Collection.perform, contains_replace, contains_replace, hbeq, h x]
  | contains =>
      rw [Collection.perform, Collection.perform, hcontains]
      exact ⟨.same _, h⟩
  | find => exact ⟨.found hfound, h⟩
  | remove =>
      rw [Collection.perform, Collection.perform, hcontains]
      refine ⟨.same _, fun x ↦ ?_⟩
      rw [contains_erase, contains_erase, hbeq, h x]

end Collection

namespace Session

/-! ## Sessions with equal formulas -/

/-- The sessions are the same, but that they may hold different formulas where these are equal. -/
structure Alike (s t : Session) : Prop where
  slots (slot : String) : Option.Rel (fun f g ↦ (f == g) = true) s.slots[slot]? t.slots[slot]?
  collection : s.collection.Alike t.collection
  table : s.table = t.table

variable {s t u : Session} {f g : Formula}

theorem Alike.refl (s : Session) : s.Alike s where
  slots slot := by
    cases s.slots[slot]? with
    | none => exact .none
    | some f => exact .some BEq.rfl
  collection _ := rfl
  table := rfl

theorem Alike.store (h : s.Alike t) (hfg : (f == g) = true) (slot : String) :
    (s.store slot f).Alike (t.store slot g) where
  slots other := by
    rw [Session.store, Session.store, Std.HashMap.getElem?_insert, Std.HashMap.getElem?_insert]
    split_ifs
    · exact .some hfg
    · exact h.slots other
  collection := h.collection
  table := h.table

/-- Alike in the answer and in the session that comes with it. -/
def Matches (p q : Answer × Session) : Prop :=
  p.1.Alike q.1 ∧ p.2.Alike q.2

theorem Alike.withSlot (h : s.Alike t) (slot : String) {act act' : Formula → Answer × Session}
    (hact : ∀ f g, (f == g) = true → Matches (act f) (act' g)) :
    Matches (s.withSlot slot act) (t.withSlot slot act') := by
  have hslot := h.slots slot
  unfold Session.withSlot
  cases hs : s.slots[slot]? with
  | none =>
      rw [hs] at hslot
      cases ht : t.slots[slot]? with
      | none => exact ⟨.same _, h⟩
      | some g =>
          rw [ht] at hslot
          cases hslot
  | some f =>
      rw [hs] at hslot
      cases ht : t.slots[slot]? with
      | none =>
          rw [ht] at hslot
          cases hslot
      | some g =>
          rw [ht] at hslot
          cases hslot with
          | some hfg => exact hact f g hfg

theorem Alike.enter (h : s.Alike t) (slot text : String) :
    Matches (s.enter slot text) (t.enter slot text) := by
  have htable (table : Table) : ({ s with table } : Session).Alike { t with table } :=
    ⟨h.slots, h.collection, rfl⟩
  unfold Session.enter
  rw [← h.table]
  rcases (Play.parse text).run s.table with ⟨r | f, table⟩
  · exact ⟨.same _, htable table⟩
  · exact ⟨.same _, (htable table).store BEq.rfl slot⟩

theorem Alike.play {α : Type} (h : s.Alike t) (action : Play α) (answer : α → Answer) :
    Matches (s.play action answer) (t.play action answer) := by
  unfold Session.play
  rw [← h.table]
  exact ⟨.same _, h.slots, h.collection, rfl⟩

theorem Alike.operate (h : s.Alike t) (slot : String) (op : Collection.Operation) :
    Matches (s.operate slot op) (t.operate slot op) := by
  refine h.withSlot slot fun f g hfg ↦ ?_
  obtain ⟨hanswer, hcollection⟩ := h.collection.perform hfg op
  exact ⟨hanswer, h.slots, hcollection, h.table⟩

theorem Alike.perform (h : s.Alike t) (c : Command) : Matches (s.perform c) (t.perform c) := by
  cases c with
  | enter slot text => exact h.enter slot text
  | copy slot target =>
      refine h.withSlot slot fun f g hfg ↦ ?_
      rw [Formula.canonical_congr hfg]
      exact ⟨.same _, h.store hfg target⟩
  | renew slot =>
      refine h.withSlot slot fun f g hfg ↦ ?_
      rw [Formula.canonical_congr hfg]
      exact h.enter slot _
  | look slot =>
      exact h.withSlot slot fun f g hfg ↦ ⟨.formula (Formula.profile_congr hfg), h⟩
  | roll slot =>
      refine h.withSlot slot fun f g hfg ↦ ?_
      rw [Formula.roll_congr hfg]
      exact h.play _ _
  | rollMany slot n =>
      refine h.withSlot slot fun f g hfg ↦ ?_
      rw [Formula.roll_congr hfg]
      exact h.play _ _
  | compare slot other =>
      refine h.withSlot slot fun f g hfg ↦ h.withSlot other fun f' g' hfg' ↦ ?_
      rw [BEq.congr_left hfg, BEq.congr_right hfg']
      exact ⟨.same _, h⟩
  | insert slot => exact h.operate slot .insert
  | replace slot => exact h.operate slot .replace
  | contains slot => exact h.operate slot .contains
  | find slot => exact h.operate slot .find
  | remove slot => exact h.operate slot .remove
  | members => exact ⟨.members h.collection.perm_profile, h⟩

theorem Alike.step (h : s.Alike t) (c : Command) :
    (s.step c).1.Alike (t.step c).1 ∧ (s.step c).2.Alike (t.step c).2 := by
  obtain ⟨hanswer, hafter⟩ := h.perform c
  refine ⟨⟨hanswer, ?_, ?_⟩, hafter⟩
  · exact congrArg (·.supply.delivered) hafter.table
  · change ((s.perform c).2.table.journal.toList.drop _ : List Entry) = _
    rw [hafter.table, h.table]
    rfl

theorem Alike.trans (hst : s.Alike t) (htu : t.Alike u) : s.Alike u where
  slots slot := by
    have hst := hst.slots slot
    have htu := htu.slots slot
    cases hs : s.slots[slot]? <;> cases ht : t.slots[slot]? <;> cases hu : u.slots[slot]? <;>
      rw [hs, ht] at hst <;> rw [ht, hu] at htu <;> cases hst <;> cases htu
    · exact .none
    · exact .some (BEq.trans ‹_› ‹_›)
  collection f := (hst.collection f).trans (htu.collection f)
  table := hst.table.trans htu.table

end Session

end Tabletop
