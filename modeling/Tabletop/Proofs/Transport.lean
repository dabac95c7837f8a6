import Mathlib
import Tabletop.Proofs.Containers
import Tabletop.Proofs.Json

/-!
# Containers written and read again

A container is written with the canonical texts of its formulas. It comes back from what is written
as an equal container, which is written alike.
-/

namespace Tabletop

open Datum (Ascending field?)

/-! ## What stands where -/

/-- The datum with a canonical text in place of each accepted one. A map comes out with each name
once and in ascending order, and an encounter with its own fields and no others. -/
inductive Shape.Rewritten : Shape → Datum → Datum → Prop
  | list {items items' : List Datum} (h : List.Forall₂ Datum.Canonized items items') :
      Rewritten .list (.list items) (.list items')
  | null : Rewritten .option .null .null
  | unit : Rewritten .option .unit .null
  | some {d d' : Datum} (h : d.Canonized d') : Rewritten .option d d'
  | map {fields fields' : List (String × Datum)} (hascending : Ascending fields')
      (h : ∀ name, Option.Rel Datum.Canonized (field? name fields) (field? name fields')) :
      Rewritten .map (.record fields) (.record fields')
  | fields {fields : List (String × Datum)} {s : String} {count count' damage damage' : Datum}
      (hname : field? "name" fields = Option.some (.text s))
      (hcount : field? "count" fields = Option.some count) (hcount' : count.Canonized count')
      (hdamage : field? "damage" fields = Option.some damage)
      (hdamage' : damage.Canonized damage') :
      Rewritten .encounter (.record fields)
        (.record [("name", .text s), ("count", count'), ("damage", damage')])
  | items {s : String} {count count' damage damage' : Datum} (hcount : count.Canonized count')
      (hdamage : damage.Canonized damage') :
      Rewritten .encounter (.list [.text s, count, damage])
        (.record [("name", .text s), ("count", count'), ("damage", damage')])

theorem Shape.Reads.rewritten {shape : Shape} {d : Datum} {c : Container}
    (h : Shape.Reads shape d c) : Shape.Rewritten shape d c.toDatum := by
  cases h with
  | list h =>
      apply Rewritten.list
      rw [List.forall₂_map_right_iff]
      exact h.imp fun _ _ ↦ Datum.canonized_of_ofDatum
  | null => exact .null
  | unit => exact .unit
  | some h => exact .some (Datum.canonized_of_ofDatum h)
  | @map fields entries h =>
      have hentries : List.Forall₂ (fun a b ↦ a.1 = b.1 ∧ Datum.Canonized a.2 b.2)
          (Datum.byName fields) (entries.map fun entry ↦ (entry.1, entry.2.toDatum)) := by
        rw [List.forall₂_map_right_iff]
        exact h.imp fun _ _ hread ↦ ⟨hread.1, Datum.canonized_of_ofDatum hread.2⟩
      have hascending := (Datum.ascending_byName fields).of_forall₂ (hentries.imp fun _ _ ↦ And.left)
      apply Rewritten.map hascending
      intro name
      rw [← Datum.lookup_byName, hascending.field?_eq]
      exact Datum.rel_lookup hentries name
  | fields hname hcount hdamage hcountRead hdamageRead =>
      exact .fields hname hcount (Datum.canonized_of_ofDatum hcountRead) hdamage
        (Datum.canonized_of_ofDatum hdamageRead)
  | items hcountRead hdamageRead =>
      exact .items (Datum.canonized_of_ofDatum hcountRead) (Datum.canonized_of_ofDatum hdamageRead)

/-! ## Containers that come back -/

namespace Container

variable {shape : Shape} {d : Datum} {c : Container}

/-- The formulas are within the limits of reading, and names stand in ascending order. -/
def Sound : Container → Prop
  | .list fs => ∀ f ∈ fs, f.Limited
  | .option f? => ∀ f ∈ f?, f.Limited
  | .map entries => Ascending entries ∧ ∀ entry ∈ entries, entry.2.Limited
  | .encounter e => e.count.Limited ∧ e.damage.Limited

/-- The formulas less their zero adjustments. -/
def trimmed : Container → Container
  | .list fs => .list (fs.map Formula.trimmed)
  | .option f? => .option (f?.map Formula.trimmed)
  | .map entries => .map (entries.map fun entry ↦ (entry.1, entry.2.trimmed))
  | .encounter e => .encounter { e with count := e.count.trimmed, damage := e.damage.trimmed }

theorem toDatum_trimmed (c : Container) : c.trimmed.toDatum = c.toDatum := by
  cases c with
  | list fs => simp [trimmed, toDatum, Formula.toDatum_trimmed]
  | option f? => cases f? <;> simp [trimmed, toDatum, Formula.toDatum_trimmed]
  | map entries => simp [trimmed, toDatum, Formula.toDatum_trimmed]
  | encounter e => simp [trimmed, toDatum, Encounter.toDatum, Formula.toDatum_trimmed]

theorem map_beq {α : Type} [BEq α] {g : α → α} (hg : ∀ a, (g a == a) = true) (items : List α) :
    (items.map g == items) = true := by
  induction items with
  | nil => rfl
  | cons a items ih => simp [hg, ih]

theorem trimmed_beq (c : Container) : (c.trimmed == c) = true := by
  cases c with
  | list fs => exact map_beq Formula.trimmed_beq fs
  | option f? =>
      cases f? with
      | none => rfl
      | some f => exact f.trimmed_beq
  | map entries =>
      apply map_beq
      intro entry
      change (entry.1 == entry.1 && entry.2.trimmed == entry.2) = true
      simp only [beq_self_eq_true, Formula.trimmed_beq, Bool.and_self]
  | encounter e =>
      change (e.name == e.name && (e.count.trimmed == e.count && e.damage.trimmed == e.damage)) =
        true
      simp only [beq_self_eq_true, Formula.trimmed_beq, Bool.and_self]

theorem exists_of_mem_right {α β : Type} {r : α → β → Prop} {left : List α} {right : List β}
    (h : List.Forall₂ r left right) {b : β} (hb : b ∈ right) : ∃ a, r a b := by
  induction h with
  | nil => cases hb
  | cons hr _ ih =>
      rcases List.mem_cons.1 hb with rfl | hb
      · exact ⟨_, hr⟩
      · exact ih hb

theorem sound_of_reads (h : shape.Reads d c) : c.Sound ∧ c.shape = shape := by
  cases h with
  | list h =>
      refine ⟨?_, rfl⟩
      intro f hf
      obtain ⟨d, hd⟩ := exists_of_mem_right h hf
      exact Formula.Limited.of_ofDatum hd
  | null => exact ⟨nofun, rfl⟩
  | unit => exact ⟨nofun, rfl⟩
  | some h =>
      refine ⟨?_, rfl⟩
      rintro _ ⟨⟩
      exact Formula.Limited.of_ofDatum h
  | @map fields entries h =>
      refine ⟨⟨?_, ?_⟩, rfl⟩
      · exact (Datum.ascending_byName fields).of_forall₂ (h.imp fun _ _ ↦ And.left)
      · intro entry hentry
        obtain ⟨field, -, hfield⟩ := exists_of_mem_right h hentry
        exact Formula.Limited.of_ofDatum hfield
  | fields _ _ _ hcount hdamage =>
      exact ⟨⟨Formula.Limited.of_ofDatum hcount, Formula.Limited.of_ofDatum hdamage⟩, rfl⟩
  | items hcount hdamage =>
      exact ⟨⟨Formula.Limited.of_ofDatum hcount, Formula.Limited.of_ofDatum hdamage⟩, rfl⟩

theorem Sound.reads_toDatum (h : c.Sound) : c.shape.Reads c.toDatum c.trimmed := by
  cases c with
  | list fs =>
      apply Shape.Reads.list
      rw [List.forall₂_map_left_iff, List.forall₂_map_right_iff, List.forall₂_same]
      intro f hf
      exact (h f hf).ofDatum_toDatum
  | option f? =>
      cases f? with
      | none => exact .null
      | some f => exact .some (h f rfl).ofDatum_toDatum
  | map entries =>
      obtain ⟨hascending, hlimited⟩ := h
      have hfields : Ascending (entries.map fun entry ↦ (entry.1, entry.2.toDatum)) :=
        List.pairwise_map.2 hascending
      apply Shape.Reads.map
      rw [hfields.byName_eq, List.forall₂_map_left_iff, List.forall₂_map_right_iff,
        List.forall₂_same]
      intro entry hentry
      exact ⟨rfl, (hlimited entry hentry).ofDatum_toDatum⟩
  | encounter e =>
      obtain ⟨hcount, hdamage⟩ := h
      apply Shape.Reads.fields _ _ _ hcount.ofDatum_toDatum hdamage.ofDatum_toDatum
      all_goals simp [field?, Datum.lookup_cons]

theorem Sound.read_toDatum (h : c.Sound) : c.shape.read c.toDatum = .ok c.trimmed :=
  Shape.read_eq_ok_iff.2 h.reads_toDatum

theorem Sound.readJson?_json (h : c.Sound) :
    c.shape.readJson? c.json = some (.ok c.trimmed) := by
  rw [Shape.readJson?, c.ofJson?_json, Option.map_some, h.read_toDatum]

theorem Sound.comesBack (h : c.Sound) : c.comesBack = true := by
  rw [Container.comesBack, h.readJson?_json]
  exact c.trimmed_beq

/-- A formula is read from texts alone, and what is wrong with another text or another datum is told
in the message. A container is read when every place for a formula has an accepted text. If one has
not, the first item of a list or the field of least name in a map gives the error. What has been
read is written with the canonical texts, in which nothing is escaped. Whatever stands in its names
and keys, the datum with these texts is read from its JSON text. So an equal container comes back
from the text, and this one is written as the same text. -/
theorem formulas_travel_as_canonical_texts :
    (∀ d f, Formula.ofDatum d = .ok f ↔ ∃ text, d = .text text ∧ Formula.parse text = .ok f) ∧
    (∀ text r, Formula.parse text = .error r →
      ∃ e, Formula.ofDatum (.text text) = .error e ∧ e.message = r.message) ∧
    (∀ d, (∀ text, d ≠ .text text) → ∃ e, Formula.ofDatum d = .error e ∧
      e.message = "invalid type: " ++ d.describe ++ ", expected dice notation like \"2d6+1\"") ∧
    (∀ (shape : Shape) d, (∃ c, shape.read d = .ok c) ↔ shape.Accepts d) ∧
    (∀ items e, Shape.list.read (.list items) = .error e ↔ ∃ left d right,
      items = left ++ d :: right ∧ (∀ b ∈ left, b.Accepted) ∧ Formula.ofDatum d = .error e) ∧
    (∀ fields e, Shape.map.read (.record fields) = .error e ↔ ∃ name, ∃ d ∈ field? name fields,
      (∀ other < name, ∀ b ∈ field? other fields, b.Accepted) ∧ Formula.ofDatum d = .error e) ∧
    (∀ (shape : Shape) d c, shape.read d = .ok c →
      shape.Rewritten d c.toDatum ∧ Datum.ofJson? c.json = some c.toDatum ∧
      c.comesBack = true ∧
      ∃ c', shape.readJson? c.json = some (.ok c') ∧ (c' == c) = true ∧
        c'.toDatum = c.toDatum ∧ c'.json = c.json) ∧
    ∀ d f, Formula.ofDatum d = .ok f → f.toDatum.json = "\"" ++ f.canonical ++ "\"" := by
  refine ⟨fun _ _ ↦ Formula.ofDatum_eq_ok_iff, ?_, ?_, fun _ _ ↦ Shape.exists_read_iff,
    fun _ _ ↦ Shape.read_list_eq_error_iff, fun _ _ ↦ Shape.read_map_eq_error_iff, ?_,
    fun d f h ↦ (Formula.Limited.of_ofDatum h).json_toDatum⟩
  · intro text r h
    refine ⟨.rejected r, ?_, rfl⟩
    rw [Formula.ofDatum, h]
    rfl
  · intro d hd
    refine ⟨.wrongType d .formula, ?_, ?_⟩
    · cases d with
      | text text => exact absurd rfl (hd text)
      | _ => rfl
    · have hexpected : ", expected " ++ Expected.formula.describe =
          ", expected dice notation like \"2d6+1\"" := by
        simp only [Expected.describe, String.reduceAppend]
      rw [ReadError.message_wrongType, String.append_assoc, hexpected]
  · intro shape d c h
    have hreads := Shape.read_eq_ok_iff.1 h
    obtain ⟨hsound, rfl⟩ := sound_of_reads hreads
    refine ⟨hreads.rewritten, c.ofJson?_json, hsound.comesBack, c.trimmed, hsound.readJson?_json,
      c.trimmed_beq, c.toDatum_trimmed, ?_⟩
    rw [json, c.toDatum_trimmed, json]

theorem encounter_comes_back_without_other_fields :
    let d := Datum.record [("count", .text "d04"), ("hp", .int 7), ("damage", .text "01d6-00"),
      ("name", .text "\"big\" goblins\x01\n")]
    let written :=
      "\x7b\"name\":\"\\\"big\\\" goblins\\u0001\\n\",\"count\":\"1d4\",\"damage\":\"1d6\"\x7d"
    (∃ c, Shape.encounter.read d = .ok c ∧ Shape.encounter.Rewritten d c.toDatum ∧
      c.json = written ∧ c.comesBack = true ∧
      Datum.ofJson? written = some (.record [("name", .text "\"big\" goblins\x01\n"),
        ("count", .text "1d4"), ("damage", .text "1d6")]) ∧
      ∃ c', Shape.encounter.readJson? written = some (.ok c') ∧ (c' == c) = true ∧
        c'.json = written) ∧
    (∃ e, Formula.ofDatum (.text "d0") = .error e ∧ e.message = "a die needs at least one side") ∧
    (∃ e, Formula.ofDatum (.int 7) = .error e ∧
      e.message = "invalid type: integer \x607\x60, expected dice notation like \"2d6+1\"") ∧
    (Formula.toDatum ⟨1, 4, none⟩).json = "\"1d4\"" := by
  intro d written
  have hcount : Formula.ofDatum (.text "d04") = .ok ⟨1, 4, none⟩ := by
    simp only [Formula.ofDatum, Formula.parse, String.reduceToList]
    rfl
  have hdamage : Formula.ofDatum (.text "01d6-00") = .ok ⟨1, 6, some ⟨.minus, 0⟩⟩ := by
    simp only [Formula.ofDatum, Formula.parse, String.reduceToList]
    rfl
  have hzero : Formula.parse "d0" = .error .zeroSides := by
    simp only [Formula.parse, String.reduceToList]
    rfl
  let c := Container.encounter ⟨"\"big\" goblins\x01\n", ⟨1, 4, none⟩, ⟨1, 6, some ⟨.minus, 0⟩⟩⟩
  have hread : Shape.encounter.read d = .ok c := by
    apply Shape.read_eq_ok_iff.2
    apply Shape.Reads.fields _ _ _ hcount hdamage
    all_goals simp [field?, Datum.lookup_cons]
  have hplain : Formula.canonical ⟨1, 4, none⟩ = "1d4" := by cbv
  have hbare : Formula.canonical ⟨1, 6, some ⟨.minus, 0⟩⟩ = "1d6" := by cbv
  have hdatum : c.toDatum = .record [("name", .text "\"big\" goblins\x01\n"),
      ("count", .text "1d4"), ("damage", .text "1d6")] := by
    simp only [c, toDatum, Encounter.toDatum, Formula.toDatum, hplain, hbare]
  have hwritten : c.json = written := by
    rw [json, hdatum]
    cbv
  have hnumber : ∀ text, Datum.int 7 ≠ .text text := by
    intro text h
    cases h
  obtain ⟨-, hrejected, hwrong, -, -, -, htravels, hescape⟩ := formulas_travel_as_canonical_texts
  obtain ⟨hrewritten, hjson, hback, c', hagain, hequal, -, hsame⟩ := htravels .encounter d c hread
  rw [hwritten] at hjson hagain hsame
  refine ⟨⟨c, hread, hrewritten, hwritten, hback, hdatum ▸ hjson, c', hagain, hequal, hsame⟩,
    hrejected "d0" _ hzero, hwrong _ hnumber, ?_⟩
  rw [hescape _ _ hcount, hplain]
  rfl

end Container

end Tabletop
