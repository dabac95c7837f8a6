import Mathlib
import Tabletop.Proofs.Likeness

/-!
# Formulas read anew

A formula may give way to what its canonical text reads as, in a slot or in the collection and at
any time of a run. The session that has it refreshed stays like the one that has not.
-/

namespace Tabletop

namespace Session

variable {s t : Session}

/-! ## Formulas within the limits of reading -/

/-- All formulas of the session are within the limits of reading. -/
structure Limited (s : Session) : Prop where
  slots {slot : String} {f : Formula} (hf : s.slots[slot]? = some f) : f.Limited
  members {f : Formula} (hf : f ∈ s.collection.toList) : f.Limited

theorem Limited.start (supply : Supply) : (start supply).Limited where
  slots hf := by
    simp [Session.start] at hf
  members hf := by
    rw [Session.start, Collection.mem_toList_iff, Collection.get?_empty] at hf
    cases hf

theorem Limited.store (h : s.Limited) (hf : f.Limited) (slot : String) :
    (s.store slot f).Limited where
  slots {other g} hg := by
    rw [Session.store, Std.HashMap.getElem?_insert] at hg
    split_ifs at hg
    · obtain rfl := Option.some.inj hg
      exact hf
    · exact h.slots hg
  members := h.members

theorem Limited.withSlot (h : s.Limited) (slot : String) {act : Formula → Answer × Session}
    (hact : ∀ f, f.Limited → (act f).2.Limited) : (s.withSlot slot act).2.Limited := by
  unfold Session.withSlot
  cases hs : s.slots[slot]? with
  | none => exact h
  | some f => exact hact f (h.slots hs)

theorem Limited.enter (h : s.Limited) (slot text : String) : (s.enter slot text).2.Limited := by
  unfold Session.enter
  rw [Play.run_parse]
  cases hread : Formula.parse text with
  | ok f => exact Limited.store ⟨h.slots, h.members⟩ (.of_parse hread) slot
  | error r => exact ⟨h.slots, h.members⟩

theorem Limited.play {α : Type} (h : s.Limited) (action : Play α) (answer : α → Answer) :
    (s.play action answer).2.Limited :=
  ⟨h.slots, h.members⟩

theorem Limited.operate (h : s.Limited) (slot : String) (op : Collection.Operation) :
    (s.operate slot op).2.Limited := by
  refine h.withSlot slot fun f hf ↦ ⟨h.slots, fun {g} hg ↦ ?_⟩
  rcases Collection.mem_toList_perform hg with rfl | hg
  · exact hf
  · exact h.members hg

theorem Limited.perform (h : s.Limited) (c : Command) : (s.perform c).2.Limited := by
  cases c with
  | enter slot text => exact h.enter slot text
  | copy slot target => exact h.withSlot slot fun f hf ↦ h.store hf target
  | renew slot => exact h.withSlot slot fun f _ ↦ h.enter slot f.canonical
  | look slot => exact h.withSlot slot fun _ _ ↦ h
  | roll slot => exact h.withSlot slot fun f _ ↦ h.play (Play.roll f) _
  | rollMany slot n => exact h.withSlot slot fun f _ ↦ h.play ((Play.roll f).times n) _
  | compare slot other => exact h.withSlot slot fun _ _ ↦ h.withSlot other fun _ _ ↦ h
  | insert slot => exact h.operate slot .insert
  | replace slot => exact h.operate slot .replace
  | contains slot => exact h.operate slot .contains
  | find slot => exact h.operate slot .find
  | remove slot => exact h.operate slot .remove
  | members => exact h

/-! ## Refreshed formulas -/

/-- A formula of the session gives way to what its canonical text reads as. -/
inductive Refresh (s : Session) : Session → Prop
  | slot {slot : String} {f g : Formula} (hheld : s.slots[slot]? = some f)
      (hread : Formula.parse f.canonical = .ok g) : Refresh s (s.store slot g)
  | member {f g : Formula} (hheld : f ∈ s.collection.toList)
      (hread : Formula.parse f.canonical = .ok g) :
      Refresh s { s with collection := s.collection.replace g }

/-- A run in which any formulas of the session are refreshed at any time, with the accounts of its
commands and the session at its end. -/
inductive RefreshedRun : Session → List Command → List (Account Answer) → Session → Prop
  | done (s : Session) : RefreshedRun s [] [] s
  | command {s last : Session} {c : Command} {cs : List Command} {accounts : List (Account Answer)}
      (h : RefreshedRun (s.step c).2 cs accounts last) :
      RefreshedRun s (c :: cs) ((s.step c).1 :: accounts) last
  | refresh {s t last : Session} {cs : List Command} {accounts : List (Account Answer)}
      (hrefresh : Refresh s t) (h : RefreshedRun t cs accounts last) :
      RefreshedRun s cs accounts last

theorem Refresh.limited (h : Refresh s t) (hs : s.Limited) : t.Limited := by
  cases h with
  | slot hheld hread => exact hs.store (.of_parse hread) _
  | member hheld hread =>
      refine ⟨hs.slots, fun {f} hf ↦ ?_⟩
      rcases Collection.mem_toList_replace hf with rfl | hf
      · exact .of_parse hread
      · exact hs.members hf

theorem Refresh.alike (h : Refresh s t) (hs : s.Limited) : s.Alike t := by
  cases h with
  | @slot slot f g hheld hread =>
      refine ⟨fun other ↦ ?_, fun _ ↦ rfl, rfl⟩
      rw [Session.store, Std.HashMap.getElem?_insert]
      split_ifs with hslot
      · obtain rfl := beq_iff_eq.1 hslot
        rw [hheld]
        exact .some (BEq.symm ((hs.slots hheld).beq_of_parse_canonical hread))
      · exact (Alike.refl s).slots other
  | @member f g hheld hread =>
      refine ⟨(Alike.refl s).slots, fun x ↦ ?_, rfl⟩
      have hequal := (hs.members hheld).beq_of_parse_canonical hread
      rw [Collection.contains_replace]
      cases hx : g == x with
      | false => rfl
      | true =>
          rw [Bool.true_or, ← Collection.contains_congr hx, Collection.contains_congr hequal,
            Collection.contains_of_mem_toList hheld]

theorem RefreshedRun.alike {cs : List Command} {accounts : List (Account Answer)}
    {last : Session} (h : RefreshedRun t cs accounts last) (ht : t.Limited) (hst : s.Alike t) :
    List.Forall₂ Account.Alike (s.run cs).1 accounts ∧ (s.run cs).2.Alike last ∧
      last.Limited := by
  induction h generalizing s with
  | done t => exact ⟨.nil, hst, ht⟩
  | @command t last c cs accounts _ ih =>
      obtain ⟨haccount, hafter⟩ := hst.step c
      obtain ⟨haccounts, hlast⟩ := ih (ht.perform c) hafter
      exact ⟨.cons haccount haccounts, hlast⟩
  | refresh hrefresh _ ih =>
      exact ih (hrefresh.limited ht) (hst.trans (hrefresh.alike ht))

/-- A run can be cut after any number of its commands. -/
theorem RefreshedRun.split {cs : List Command} {accounts : List (Account Answer)} {last : Session}
    (h : RefreshedRun s cs accounts last) (k : ℕ) :
    ∃ middle, RefreshedRun s (cs.take k) (accounts.take k) middle ∧
      RefreshedRun middle (cs.drop k) (accounts.drop k) last := by
  induction h generalizing k with
  | done s =>
      rw [List.take_nil, List.take_nil, List.drop_nil, List.drop_nil]
      exact ⟨s, .done s, .done s⟩
  | @command s last c cs accounts h ih =>
      cases k with
      | zero => exact ⟨s, .done s, .command h⟩
      | succ k =>
          obtain ⟨middle, hbefore, hafter⟩ := ih k
          exact ⟨middle, .command hbefore, hafter⟩
  | refresh hrefresh _ ih =>
      obtain ⟨middle, hbefore, hafter⟩ := ih k
      exact ⟨middle, .refresh hrefresh hbefore, hafter⟩

/-- However often formulas are refreshed in a run, its accounts are those of the plain run: the
answers, the words taken and the entries made. At its end its slots hold equal formulas, its
collection has the same canonical texts, and its table is the same, and so the sessions are alike
where both runs are cut after equally many commands. Any formula that it holds can be refreshed
again. -/
theorem refreshing_goes_unnoticed {supply : Supply} {cs : List Command}
    {accounts : List (Account Answer)} {last : Session}
    (h : RefreshedRun (start supply) cs accounts last) :
    let plain := (start supply).run cs
    List.Forall₂ Account.Alike plain.1 accounts ∧
      (∀ slot : String, Option.Rel (fun f g : Formula ↦ (f == g) = true) plain.2.slots[slot]?
        last.slots[slot]?) ∧
      (plain.2.collection.toList.map Formula.canonical).Perm
        (last.collection.toList.map Formula.canonical) ∧
      plain.2.table = last.table ∧
      (∀ k, ∃ middle, RefreshedRun (start supply) (cs.take k) (accounts.take k) middle ∧
        RefreshedRun middle (cs.drop k) (accounts.drop k) last ∧
        ((start supply).run (cs.take k)).2.Alike middle) ∧
      ∀ f, (∃ slot : String, last.slots[slot]? = some f) ∨ f ∈ last.collection.toList →
        ∃ g, Formula.parse f.canonical = .ok g ∧ (g == f) = true := by
  obtain ⟨haccounts, halike, hlimited⟩ := h.alike (.start supply) (.refl _)
  refine ⟨haccounts, halike.slots, ?_, halike.table, fun k ↦ ?_, ?_⟩
  · have htexts := halike.collection.perm_profile.map Formula.Profile.canonical
    rwa [List.map_map, List.map_map] at htexts
  · obtain ⟨middle, hbefore, hafter⟩ := h.split k
    exact ⟨middle, hbefore, hafter, (hbefore.alike (.start supply) (.refl _)).2.1⟩
  · intro f hf
    have hf : f.Limited := by
      rcases hf with ⟨slot, hf⟩ | hf
      · exact hlimited.slots hf
      · exact hlimited.members hf
    exact ⟨f.trimmed, hf.parse_canonical, f.trimmed_beq⟩

theorem slot_refreshed_before_roll :
    ∃ accounts last,
      RefreshedRun (start (.ofWords [0, 0xc0000000])) [.enter "a" "2d6+", .roll "a"]
        accounts last ∧
      last.slots["a"]? = some ⟨2, 6, none⟩ ∧
      ((start (.ofWords [0, 0xc0000000])).run [.enter "a" "2d6+", .roll "a"]).2.slots["a"]? =
        some ⟨2, 6, some ⟨.plus, 0⟩⟩ ∧
      List.Forall₂ Account.Alike
        ((start (.ofWords [0, 0xc0000000])).run [.enter "a" "2d6+", .roll "a"]).1 accounts := by
  have hread : Formula.parse "2d6+" = .ok ⟨2, 6, some ⟨.plus, 0⟩⟩ := by
    simp only [Formula.parse, String.reduceToList]
    rfl
  have hagain : Formula.parse (Formula.canonical ⟨2, 6, some ⟨.plus, 0⟩⟩) = .ok ⟨2, 6, none⟩ :=
    (Formula.Limited.of_parse hread).parse_canonical
  have hentered : ((start (.ofWords [0, 0xc0000000])).step (.enter "a" "2d6+")).2 =
      (start (.ofWords [0, 0xc0000000])).store "a" ⟨2, 6, some ⟨.plus, 0⟩⟩ := by
    simp only [step, perform, enter, Play.run_parse, hread]
  have hheld : ((start (.ofWords [0, 0xc0000000])).step (.enter "a" "2d6+")).2.slots["a"]? =
      some ⟨2, 6, some ⟨.plus, 0⟩⟩ := by
    rw [hentered]
    exact Std.HashMap.getElem?_insert_self
  have hrolled (s : Session) : (s.step (.roll "a")).2.slots = s.slots := by
    simp only [step, perform, withSlot]
    cases s.slots["a"]? <;> rfl
  have hrun := RefreshedRun.command (.refresh (.slot hheld hagain)
    (.command (c := .roll "a") (.done _)))
  refine ⟨_, _, hrun, ?_, ?_, (refreshing_goes_unnoticed hrun).1⟩
  · rw [hrolled]
    exact Std.HashMap.getElem?_insert_self
  · rw [← hheld]
    exact congrArg (fun slots : Std.HashMap String Formula ↦ slots["a"]?) (hrolled _)

end Session

end Tabletop
