import Mathlib
import Tabletop.Interchange.Datum

/-!
# Fields by name

Sorted by name, fields hold under each name what the last field of that name has, and a second
sorting changes nothing.
-/

namespace Tabletop.Datum

variable {α β : Type} {fields : List (String × α)} {name other : String} {value : α}

/-- What the fields hold under a name. Of several fields of one name the last one counts. -/
def field? (name : String) (fields : List (String × α)) : Option α :=
  fields.reverse.lookup name

/-- Each name stands after all lesser ones, and so only once. -/
def Ascending (fields : List (String × α)) : Prop :=
  fields.Pairwise fun a b ↦ a.1 < b.1

theorem lookup_cons (held name : String) (value : α) (fields : List (String × α)) :
    ((held, value) :: fields).lookup name =
      if name = held then some value else fields.lookup name := by
  by_cases h : name = held
  · simp [h]
  · simp [List.lookup_cons, h, beq_false_of_ne h]

/-! ## Putting in one field -/

theorem lookup_insertField (name other : String) (value : α) (fields : List (String × α)) :
    (insertField name value fields).lookup other =
      if other = name then some value else fields.lookup other := by
  induction fields with
  | nil => exact lookup_cons name other value []
  | cons field fields ih =>
      obtain ⟨held, old⟩ := field
      rw [insertField]
      by_cases hlt : name < held
      · simpa only [if_pos hlt] using lookup_cons name other value _
      · by_cases heq : name = held
        · subst heq
          simp only [if_neg hlt, if_true, lookup_cons]
          split_ifs <;> rfl
        · simp only [if_neg hlt, if_neg heq, lookup_cons, ih]
          grind

theorem mem_insertField {field : String × α} (h : field ∈ insertField name value fields) :
    field = (name, value) ∨ field ∈ fields := by
  induction fields with
  | nil => simpa [insertField] using h
  | cons head fields ih =>
      obtain ⟨held, old⟩ := head
      rw [insertField] at h
      split_ifs at h with hlt heq
      · exact List.mem_cons.1 h
      · rcases List.mem_cons.1 h with rfl | h
        · exact .inl rfl
        · exact .inr (List.mem_cons_of_mem _ h)
      · rcases List.mem_cons.1 h with rfl | h
        · exact .inr List.mem_cons_self
        · exact (ih h).imp_right (List.mem_cons_of_mem _)

theorem Ascending.insertField (h : Ascending fields) (name : String) (value : α) :
    Ascending (insertField name value fields) := by
  induction fields with
  | nil => exact List.pairwise_singleton _ _
  | cons head fields ih =>
      obtain ⟨held, old⟩ := head
      obtain ⟨hhead, hrest⟩ := List.pairwise_cons.1 h
      rw [Datum.insertField]
      split_ifs with hlt heq
      · apply List.pairwise_cons.2
        refine ⟨?_, h⟩
        intro field hfield
        rcases List.mem_cons.1 hfield with rfl | hfield
        · exact hlt
        · exact lt_trans hlt (hhead field hfield)
      · subst heq
        exact List.pairwise_cons.2 ⟨hhead, hrest⟩
      · apply List.pairwise_cons.2
        refine ⟨?_, ih hrest⟩
        intro field hfield
        rcases mem_insertField hfield with rfl | hfield
        · exact lt_of_le_of_ne (not_lt.1 hlt) (Ne.symm heq)
        · exact hhead field hfield

/-- A name greater than all others goes to the end. -/
theorem insertField_eq_concat (h : ∀ field ∈ fields, field.1 < name) :
    insertField name value fields = fields ++ [(name, value)] := by
  induction fields with
  | nil => rfl
  | cons head fields ih =>
      obtain ⟨held, old⟩ := head
      obtain ⟨hhead, hrest⟩ := List.forall_mem_cons.1 h
      rw [insertField, if_neg hhead.asymm, if_neg hhead.ne', ih hrest]
      rfl

/-! ## Sorting -/

theorem byName_concat (fields : List (String × α)) (name : String) (value : α) :
    byName (fields ++ [(name, value)]) = insertField name value (byName fields) := by
  simp [byName]

theorem ascending_byName (fields : List (String × α)) : Ascending (byName fields) := by
  induction fields using List.reverseRecOn with
  | nil => exact List.Pairwise.nil
  | append_singleton fields field ih =>
      rw [byName_concat]
      exact ih.insertField _ _

theorem lookup_byName (name : String) (fields : List (String × α)) :
    (byName fields).lookup name = field? name fields := by
  induction fields using List.reverseRecOn with
  | nil => rfl
  | append_singleton fields field ih =>
      obtain ⟨last, value⟩ := field
      rw [byName_concat, lookup_insertField, ih, field?, field?, List.reverse_concat, lookup_cons]

theorem Ascending.byName_eq (h : Ascending fields) : byName fields = fields := by
  induction fields using List.reverseRecOn with
  | nil => rfl
  | append_singleton fields field ih =>
      obtain ⟨hfields, -, hlast⟩ := List.pairwise_append.1 h
      rw [byName_concat, ih hfields]
      apply insertField_eq_concat
      intro other hother
      exact hlast other hother field (List.mem_singleton_self field)

theorem Ascending.field?_eq (h : Ascending fields) (name : String) :
    field? name fields = fields.lookup name := by
  rw [← lookup_byName, h.byName_eq]

/-! ## Looking up -/

theorem Ascending.lookup_eq_some_iff (h : Ascending fields) :
    fields.lookup name = some value ↔ (name, value) ∈ fields := by
  induction fields with
  | nil => simp
  | cons head fields ih =>
      obtain ⟨held, old⟩ := head
      obtain ⟨hhead, hrest⟩ := List.pairwise_cons.1 h
      by_cases heq : name = held
      · subst heq
        have habsent : (name, value) ∉ fields := fun hmem ↦ (hhead _ hmem).ne rfl
        simp [habsent, eq_comm]
      · simp [lookup_cons, heq, ih hrest]

theorem mem_byName_iff : (name, value) ∈ byName fields ↔ field? name fields = some value := by
  rw [← (ascending_byName fields).lookup_eq_some_iff, lookup_byName]

theorem forall_mem_byName_iff {p : String × α → Prop} :
    (∀ field ∈ byName fields, p field) ↔ ∀ name, ∀ v ∈ field? name fields, p (name, v) := by
  simp only [Prod.forall, mem_byName_iff, Option.mem_def]

/-- Before a field stand those of lesser names. -/
theorem Ascending.mem_left_iff {left right : List (String × α)}
    (h : Ascending (left ++ (name, value) :: right)) {field : String × α} :
    field ∈ left ↔ field ∈ left ++ (name, value) :: right ∧ field.1 < name := by
  obtain ⟨-, hright, hleft⟩ := List.pairwise_append.1 h
  constructor
  · intro hmem
    exact ⟨List.mem_append_left _ hmem, hleft field hmem _ List.mem_cons_self⟩
  · intro hlesser
    obtain ⟨hmem, hlt⟩ := hlesser
    rcases List.mem_append.1 hmem with hmem | hmem
    · exact hmem
    · rcases List.mem_cons.1 hmem with rfl | hmem
      · exact absurd hlt (lt_irrefl _)
      · exact absurd hlt ((List.pairwise_cons.1 hright).1 field hmem).asymm

/-! ## Other values under the same names -/

theorem Ascending.of_forall₂ {others : List (String × β)} (h : Ascending fields)
    (hnames : List.Forall₂ (fun a b ↦ a.1 = b.1) fields others) : Ascending others := by
  have hmap : fields.map Prod.fst = others.map Prod.fst := by
    rw [← List.forall₂_eq_eq_eq, List.forall₂_map_left_iff, List.forall₂_map_right_iff]
    exact hnames
  have hpairwise : (others.map Prod.fst).Pairwise (· < ·) := hmap ▸ List.pairwise_map.2 h
  exact List.pairwise_map.1 hpairwise

theorem rel_lookup {r : α → β → Prop} {others : List (String × β)}
    (h : List.Forall₂ (fun a b ↦ a.1 = b.1 ∧ r a.2 b.2) fields others) (name : String) :
    Option.Rel r (fields.lookup name) (others.lookup name) := by
  induction h with
  | nil => exact .none
  | @cons a b fields others hab hrest ih =>
      obtain ⟨heq, hr⟩ := hab
      rw [lookup_cons, lookup_cons, heq]
      split_ifs
      · exact .some hr
      · exact ih

end Tabletop.Datum
