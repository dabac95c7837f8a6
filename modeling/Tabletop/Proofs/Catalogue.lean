import Mathlib
import Tabletop.Proofs.Canonical
import Tabletop.Proofs.Members

/-!
# Collections as catalogues

A catalogue files formulas by their canonical texts. A collection of formulas that were read from
text is such a catalogue: as formulas are equal when their texts are, each member is filed once, and
the operations find it, leave it, exchange it or take it out by its text.
-/

namespace Tabletop

abbrev Catalogue := Finmap fun _ : String ↦ Formula

theorem Formula.Limited.canonical_ne_of_not_beq {f g : Formula} (hf : f.Limited) (hg : g.Limited)
    (h : ¬(f == g) = true) : g.canonical ≠ f.canonical := by
  intro htext
  exact h ((hf.canonical_eq_iff hg).1 htext.symm)

namespace Collection

/-- Does the operations in order. -/
def performAll (c : Collection) : List (Operation × Formula) → List Reply × Collection
  | [] => ([], c)
  | (op, f) :: acts =>
      let (reply, next) := c.perform f op
      let (replies, last) := next.performAll acts
      (reply :: replies, last)

end Collection

namespace Catalogue

open Collection (Operation Reply)

/-- An insertion leaves the formula that is filed already, and a replacement puts another in its
place. The others look a formula up by its text. -/
def perform (m : Catalogue) (f : Formula) : Operation → Reply × Catalogue
  | .insert =>
      if f.canonical ∈ m then (.truth false, m) else (.truth true, m.insert f.canonical f)
  | .replace => (.found (m.lookup f.canonical), m.insert f.canonical f)
  | .contains => (.truth (decide (f.canonical ∈ m)), m)
  | .find => (.found (m.lookup f.canonical), m)
  | .remove => (.truth (decide (f.canonical ∈ m)), m.erase f.canonical)

def performAll (m : Catalogue) : List (Operation × Formula) → List Reply × Catalogue
  | [] => ([], m)
  | (op, f) :: acts =>
      let (reply, next) := m.perform f op
      let (replies, last) := next.performAll acts
      (reply :: replies, last)

/-- The catalogue has the members of the collection, each under its canonical text, and all of them
are within the limits of reading. -/
structure Files (m : Catalogue) (c : Collection) : Prop where
  get?_eq {f : Formula} (hf : f.Limited) : c.get? f = m.lookup f.canonical
  limited {f : Formula} (hf : f ∈ c.toList) : f.Limited
  filed {text : String} {f : Formula} (hf : m.lookup text = some f) :
    f.Limited ∧ f.canonical = text

variable {m : Catalogue} {c d : Collection} {f : Formula}

theorem Files.empty : Files ∅ .empty where
  get?_eq _ := by rw [Collection.get?_empty, Finmap.lookup_empty]
  limited hf := by
    rw [Collection.mem_toList_iff, Collection.get?_empty] at hf
    cases hf
  filed hf := by
    rw [Finmap.lookup_empty] at hf
    cases hf

theorem Files.lookup_of_mem (h : Files m c) (hf : f ∈ c.toList) :
    m.lookup f.canonical = some f := by
  rw [← h.get?_eq (h.limited hf), Collection.mem_toList_iff.1 hf]

theorem Files.mem_toList_iff (h : Files m c) : f ∈ c.toList ↔ ∃ text, m.lookup text = some f := by
  constructor
  · intro hf
    exact ⟨f.canonical, h.lookup_of_mem hf⟩
  · rintro ⟨text, hf⟩
    obtain ⟨hlimited, rfl⟩ := h.filed hf
    rw [Collection.mem_toList_iff, h.get?_eq hlimited, hf]

theorem Files.contains_eq (h : Files m c) (hf : f.Limited) :
    c.contains f = decide (f.canonical ∈ m) := by
  rw [Collection.contains_eq_isSome_get?, h.get?_eq hf, Bool.eq_iff_iff, decide_eq_true_iff,
    Finmap.lookup_isSome]

/-! ## The operations -/

/-- Collections that give back the same formulas are filed by the same catalogue. -/
theorem Files.congr (h : Files m c) (hget : ∀ f, d.get? f = c.get? f) : Files m d where
  get?_eq hf := (hget _).trans (h.get?_eq hf)
  limited hf := by
    rw [Collection.mem_toList_iff, hget, ← Collection.mem_toList_iff] at hf
    exact h.limited hf
  filed := h.filed

theorem Files.replace (h : Files m c) (hf : f.Limited) :
    Files (m.insert f.canonical f) (c.replace f) where
  get?_eq {g} hg := by
    rw [Collection.get?_replace]
    by_cases hequal : (f == g) = true
    · rw [if_pos hequal, ← (hf.canonical_eq_iff hg).2 hequal, Finmap.lookup_insert]
    · have hne := hf.canonical_ne_of_not_beq hg hequal
      rw [if_neg hequal, Finmap.lookup_insert_of_ne _ hne, h.get?_eq hg]
  limited hg := by
    rcases Collection.mem_toList_replace hg with rfl | hg
    · exact hf
    · exact h.limited hg
  filed {text g} hg := by
    by_cases htext : text = f.canonical
    · subst htext
      rw [Finmap.lookup_insert] at hg
      obtain rfl := Option.some.inj hg
      exact ⟨hf, rfl⟩
    · rw [Finmap.lookup_insert_of_ne _ htext] at hg
      exact h.filed hg

theorem Files.erase (h : Files m c) (hf : f.Limited) :
    Files (m.erase f.canonical) (c.erase f) where
  get?_eq {g} hg := by
    rw [Collection.get?_erase]
    by_cases hequal : (f == g) = true
    · rw [if_pos hequal, ← (hf.canonical_eq_iff hg).2 hequal, Finmap.lookup_erase]
    · have hne := hf.canonical_ne_of_not_beq hg hequal
      rw [if_neg hequal, Finmap.lookup_erase_ne hne, h.get?_eq hg]
  limited hg := h.limited (Collection.mem_toList_erase hg)
  filed {text g} hg := by
    have htext : text ≠ f.canonical := by
      rintro rfl
      rw [Finmap.lookup_erase] at hg
      cases hg
    rw [Finmap.lookup_erase_ne htext] at hg
    exact h.filed hg

theorem Files.perform (h : Files m c) (hf : f.Limited) (op : Operation) :
    (c.perform f op).1 = (m.perform f op).1 ∧ Files (m.perform f op).2 (c.perform f op).2 := by
  have hcontains := h.contains_eq hf
  have hget := h.get?_eq hf
  cases op with
  | insert =>
      -- A text that is filed already keeps its formula; a new one is filed as by a replacement.
      rw [Catalogue.perform, Collection.perform]
      by_cases hmem : f.canonical ∈ m
      · rw [if_pos hmem, hcontains, decide_eq_true hmem]
        refine ⟨rfl, h.congr fun g ↦ ?_⟩
        rw [Collection.get?_insert, hcontains, if_neg (by simp [hmem])]
      · rw [if_neg hmem, hcontains, decide_eq_false hmem]
        refine ⟨rfl, (h.replace hf).congr fun g ↦ ?_⟩
        rw [Collection.get?_insert, Collection.get?_replace, hcontains]
        simp [hmem]
  | replace => exact ⟨congrArg Reply.found hget, h.replace hf⟩
  | contains => exact ⟨congrArg Reply.truth hcontains, h⟩
  | find => exact ⟨congrArg Reply.found hget, h⟩
  | remove => exact ⟨congrArg Reply.truth hcontains, h.erase hf⟩

theorem Files.performAll (h : Files m c) {acts : List (Operation × Formula)}
    (hacts : ∀ act ∈ acts, act.2.Limited) :
    (c.performAll acts).1 = (m.performAll acts).1 ∧
      Files (m.performAll acts).2 (c.performAll acts).2 := by
  induction acts generalizing m c with
  | nil => exact ⟨rfl, h⟩
  | cons act acts ih =>
      obtain ⟨op, f⟩ := act
      obtain ⟨hf, hacts⟩ := List.forall_mem_cons.1 hacts
      obtain ⟨hreply, hnext⟩ := h.perform hf op
      obtain ⟨hreplies, hlast⟩ := ih hnext hacts
      exact ⟨congrArg₂ List.cons hreply hreplies, hlast⟩

/-! ## The texts of the members -/

theorem Files.nodup_canonical (h : Files m c) : (c.toList.map Formula.canonical).Nodup := by
  rw [List.Nodup, List.pairwise_map]
  refine c.distinct_toList.imp_of_mem ?_
  intro f g hf hg hne htext
  rw [((h.limited hf).canonical_eq_iff (h.limited hg)).1 htext] at hne
  cases hne

theorem Files.keys_eq (h : Files m c) : m.keys = (c.toList.map Formula.canonical).toFinset := by
  ext text
  rw [Finmap.mem_keys, Finmap.mem_iff, List.mem_toFinset, List.mem_map]
  constructor
  · rintro ⟨f, hf⟩
    exact ⟨f, h.mem_toList_iff.2 ⟨text, hf⟩, (h.filed hf).2⟩
  · rintro ⟨f, hf, rfl⟩
    exact ⟨f, h.lookup_of_mem hf⟩

theorem Files.size_eq (h : Files m c) :
    c.size = (c.toList.map Formula.canonical).toFinset.card := by
  rw [List.toFinset_card_of_nodup h.nodup_canonical, List.length_map, Collection.length_toList]

end Catalogue

/-- Whatever is done to a collection, beginning with none, it answers as a catalogue by canonical
text does, and holds what that has come to hold: its members are the formulas that are filed, each
under its own text and no two under the same. So it has as many members as they have texts. -/
theorem Collection.members_are_filed_by_text {acts : List (Collection.Operation × Formula)}
    (h : ∀ act ∈ acts, ∃ text, Formula.parse text = .ok act.2) :
    let done := Collection.empty.performAll acts
    let filed := Catalogue.performAll ∅ acts
    done.1 = filed.1 ∧
      (∀ f, f ∈ done.2.toList ↔ ∃ text, filed.2.lookup text = some f) ∧
      (∀ text f, filed.2.lookup text = some f → f.canonical = text) ∧
      (done.2.toList.map Formula.canonical).Nodup ∧
      done.2.size = filed.2.keys.card ∧
      done.2.size = (done.2.toList.map Formula.canonical).toFinset.card := by
  have hlimited : ∀ act ∈ acts, act.2.Limited := by
    intro act hact
    obtain ⟨text, htext⟩ := h act hact
    exact .of_parse htext
  obtain ⟨hreplies, hfiles⟩ := Catalogue.Files.empty.performAll hlimited
  refine ⟨hreplies, fun f ↦ hfiles.mem_toList_iff, fun text f hf ↦ (hfiles.filed hf).2,
    hfiles.nodup_canonical, ?_, hfiles.size_eq⟩
  rw [hfiles.keys_eq, hfiles.size_eq]

theorem Collection.zero_adjustment_gives_way_to_another :
    Formula.parse "2d6+" = .ok ⟨2, 6, some ⟨.plus, 0⟩⟩ ∧ Formula.parse "2d6" = .ok ⟨2, 6, none⟩ ∧
      Formula.parse "02d6-00" = .ok ⟨2, 6, some ⟨.minus, 0⟩⟩ ∧
      Formula.parse "d6" = .ok ⟨1, 6, none⟩ ∧
      (empty.performAll [(.insert, ⟨2, 6, some ⟨.plus, 0⟩⟩), (.insert, ⟨2, 6, none⟩),
        (.replace, ⟨2, 6, some ⟨.minus, 0⟩⟩), (.insert, ⟨1, 6, none⟩)]).1 =
          [.truth true, .truth false, .found (some ⟨2, 6, some ⟨.plus, 0⟩⟩), .truth true] ∧
      (empty.performAll [(.insert, ⟨2, 6, some ⟨.plus, 0⟩⟩), (.insert, ⟨2, 6, none⟩),
        (.replace, ⟨2, 6, some ⟨.minus, 0⟩⟩), (.insert, ⟨1, 6, none⟩)]).2.size = 2 := by
  have hplus : Formula.parse "2d6+" = .ok ⟨2, 6, some ⟨.plus, 0⟩⟩ := by
    simp only [Formula.parse, String.reduceToList]
    rfl
  have hnone : Formula.parse "2d6" = .ok ⟨2, 6, none⟩ := by
    simp only [Formula.parse, String.reduceToList]
    rfl
  have hminus : Formula.parse "02d6-00" = .ok ⟨2, 6, some ⟨.minus, 0⟩⟩ := by
    simp only [Formula.parse, String.reduceToList]
    rfl
  have hone : Formula.parse "d6" = .ok ⟨1, 6, none⟩ := by
    simp only [Formula.parse, String.reduceToList]
    rfl
  have hread : ∀ act ∈ [(Operation.insert, (⟨2, 6, some ⟨.plus, 0⟩⟩ : Formula)),
      (.insert, ⟨2, 6, none⟩), (.replace, ⟨2, 6, some ⟨.minus, 0⟩⟩), (.insert, ⟨1, 6, none⟩)],
      ∃ text, Formula.parse text = .ok act.2 := by
    simp only [List.forall_mem_cons]
    exact ⟨⟨_, hplus⟩, ⟨_, hnone⟩, ⟨_, hminus⟩, ⟨_, hone⟩, List.forall_mem_nil _⟩
  obtain ⟨hreplies, -, -, -, hsize, -⟩ := members_are_filed_by_text hread
  exact ⟨hplus, hnone, hminus, hone, hreplies.trans rfl, hsize.trans rfl⟩

end Tabletop
