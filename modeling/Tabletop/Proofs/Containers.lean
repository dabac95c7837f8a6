import Mathlib
import Tabletop.Interchange.Container
import Tabletop.Proofs.Canonical
import Tabletop.Proofs.Fields

/-!
# What containers are read as

One formula is read from a text, and a container is read place by place. What stands in the way of
a formula gives the error: in a list the first item that is none, in a record the field of the least
name.
-/

namespace Tabletop

theorem Text.Json.escape_eq_singleton {c : Char} (hletter : letter? c = none)
    (hc : ¬c.toNat < 0x20) : escape c = [c] := by
  rw [escape, hletter]
  exact if_neg hc

/-! ## Reading one datum -/

theorem ReadError.message_wrongType (d : Datum) (expected : Expected) :
    (wrongType d expected).message =
      "invalid type: " ++ d.describe ++ ", expected " ++ expected.describe :=
  rfl

namespace Formula

variable {d : Datum} {f : Formula}

theorem ofDatum_eq_ok_iff : ofDatum d = .ok f ↔ ∃ text, d = .text text ∧ parse text = .ok f := by
  cases d with
  | text text =>
      simp only [ofDatum, Datum.text.injEq, exists_eq_left']
      cases parse text <;> simp [Except.mapError]
  | _ => simp [ofDatum]

theorem Limited.of_ofDatum (h : ofDatum d = .ok f) : f.Limited := by
  obtain ⟨text, -, htext⟩ := ofDatum_eq_ok_iff.1 h
  exact Limited.of_parse htext

theorem toDatum_trimmed (f : Formula) : f.trimmed.toDatum = f.toDatum :=
  congrArg Datum.text (canonical_congr f.trimmed_beq)

theorem Limited.ofDatum_toDatum (hf : f.Limited) : ofDatum f.toDatum = .ok f.trimmed :=
  ofDatum_eq_ok_iff.2 ⟨f.canonical, rfl, hf.parse_canonical⟩

theorem Limited.escape_of_mem_canonical (hf : f.Limited) {c : Char}
    (hc : c ∈ f.canonical.toList) : Text.Json.escape c = [c] := by
  rcases hf.spells_canonical.mem_alphabet hc with hdigit | rfl | rfl | rfl
  · have hspace : ' ' < c := lt_of_lt_of_le (by decide) hdigit.1
    apply Text.Json.escape_eq_singleton
    · unfold Text.Json.letter?
      split <;> first | rfl | exact absurd hdigit (by decide)
    · exact Nat.not_lt.2 (le_of_lt hspace)
  all_goals rfl

/-- Nothing in a canonical text has to be escaped. -/
theorem Limited.json_toDatum (hf : f.Limited) : f.toDatum.json = "\"" ++ f.canonical ++ "\"" := by
  have hescape : f.canonical.toList.flatMap Text.Json.escape = f.canonical.toList := by
    rw [List.flatMap_congr fun c hc ↦ hf.escape_of_mem_canonical hc]
    exact List.flatMap_singleton' _
  apply String.toList_injective
  simp [toDatum, Datum.json, Text.Json.quote, hescape]

end Formula

namespace Datum

/-- A text that a formula is read from. -/
def Accepted (d : Datum) : Prop :=
  ∃ text f, d = .text text ∧ Formula.parse text = .ok f

/-- In place of an accepted text stands the canonical text of its formula. -/
def Canonized (d d' : Datum) : Prop :=
  ∃ text f, d = .text text ∧ Formula.parse text = .ok f ∧ d' = .text f.canonical

variable {d : Datum} {f : Formula}

theorem accepted_iff : d.Accepted ↔ ∃ f, Formula.ofDatum d = .ok f := by
  simp only [Accepted, Formula.ofDatum_eq_ok_iff]
  exact exists_comm

theorem canonized_of_ofDatum (h : Formula.ofDatum d = .ok f) : Canonized d f.toDatum := by
  obtain ⟨text, htext, hparse⟩ := Formula.ofDatum_eq_ok_iff.1 h
  exact ⟨text, f, htext, hparse, rfl⟩

end Datum

/-! ## Reading one after another -/

section Except

variable {α β ε : Type} {read : α → Except ε β} {items : List α} {a : α} {b : β} {e : ε}

theorem bind_eq_ok_iff {x : Except ε α} {next : α → Except ε β} :
    x >>= next = .ok b ↔ ∃ a, x = .ok a ∧ next a = .ok b := by
  cases x <;> simp [bind, Except.bind]

theorem bind_pure_eq_ok_iff {x : Except ε α} {g : α → β} :
    (do return g (← x)) = Except.ok b ↔ ∃ a, x = .ok a ∧ g a = b := by
  cases x <;> simp [bind, Except.bind, pure, Except.pure]

theorem bind_pure_eq_error_iff {x : Except ε α} {g : α → β} :
    (do return g (← x)) = Except.error e ↔ x = .error e := by
  cases x <;> simp [bind, Except.bind, pure, Except.pure]

theorem exists_bind_pure_iff {x : Except ε α} {g : α → β} :
    (∃ b, (do return g (← x)) = Except.ok b) ↔ ∃ a, x = .ok a := by
  simp only [bind_pure_eq_ok_iff]
  grind

theorem mapM_eq_ok_iff {found : List β} :
    items.mapM read = .ok found ↔ List.Forall₂ (fun a b ↦ read a = .ok b) items found := by
  induction items generalizing found with
  | nil => cases found <;> simp [pure, Except.pure]
  | cons a items ih =>
      simp only [List.mapM_cons, bind_eq_ok_iff, ih, pure, Except.pure, Except.ok.injEq]
      constructor
      · intro h
        obtain ⟨b, hb, rest, hrest, rfl⟩ := h
        exact .cons hb hrest
      · intro h
        cases h with
        | cons hb hrest => exact ⟨_, hb, _, hrest, rfl⟩

theorem mapM_cons_error_iff (ha : read a = .ok b) :
    (a :: items).mapM read = .error e ↔ items.mapM read = .error e := by
  rw [List.mapM_cons, ha]
  cases items.mapM read <;> simp [bind, Except.bind, pure, Except.pure]

theorem exists_mapM_eq_ok_iff :
    (∃ found, items.mapM read = .ok found) ↔ ∀ a ∈ items, ∃ b, read a = .ok b := by
  induction items with
  | nil => simp [pure, Except.pure]
  | cons a items ih =>
      simp only [mapM_eq_ok_iff, List.forall₂_cons_left_iff, List.forall_mem_cons, ← ih]
      constructor
      · rintro ⟨_, b, found, hb, hfound, rfl⟩
        exact ⟨⟨b, hb⟩, found, hfound⟩
      · rintro ⟨⟨b, hb⟩, found, hfound⟩
        exact ⟨_, b, found, hb, hfound, rfl⟩

/-- The first item that cannot be read gives the error. -/
theorem mapM_eq_error_iff :
    items.mapM read = .error e ↔ ∃ left a right, items = left ++ a :: right ∧
      (∀ b ∈ left, ∃ v, read b = .ok v) ∧ read a = .error e := by
  constructor
  · intro h
    induction items with
    | nil => cases h
    | cons a items ih =>
        cases ha : read a with
        | error e' =>
            rw [List.mapM_cons, ha] at h
            cases h
            exact ⟨[], a, items, rfl, List.forall_mem_nil _, ha⟩
        | ok v =>
            obtain ⟨left, b, right, rfl, hleft, hb⟩ := ih ((mapM_cons_error_iff ha).1 h)
            exact ⟨a :: left, b, right, rfl, List.forall_mem_cons.2 ⟨⟨v, ha⟩, hleft⟩, hb⟩
  · intro h
    obtain ⟨left, a, right, rfl, hleft, ha⟩ := h
    induction left with
    | nil =>
        rw [List.nil_append, List.mapM_cons, ha]
        rfl
    | cons b left ih =>
        obtain ⟨⟨v, hb⟩, hleft⟩ := List.forall_mem_cons.1 hleft
        exact (mapM_cons_error_iff hb).2 (ih hleft)

end Except

/-! ## Reading an encounter -/

namespace Encounter

open Datum (Ascending field? lookup_cons)

variable {α : Type} {read : Datum → Except ReadError α} {fields : List (String × Datum)}
  {held taken : Option α} {e e' : Draft} {name : String} {d : Datum}

/-- What is read of a field, if there is one, takes the place of what is held. -/
inductive Takes (read : Datum → Except ReadError α) : Option Datum → Option α → Option α → Prop
  | keep {held : Option α} : Takes read none held held
  | take {d : Datum} {held : Option α} {a : α} (h : read d = .ok a) :
      Takes read (some d) held (some a)

theorem takes_none_iff : Takes read none held taken ↔ held = taken := by
  constructor
  · rintro ⟨⟩
    rfl
  · rintro rfl
    exact .keep

theorem takes_some_iff : Takes read (some d) held taken ↔ ∃ a, read d = .ok a ∧ some a = taken := by
  constructor
  · rintro ⟨⟩
    exact ⟨_, ‹_›, rfl⟩
  · rintro ⟨a, h, rfl⟩
    exact .take h

theorem takes_from_none_iff {found : Option Datum} {a : α} :
    Takes read found none (some a) ↔ ∃ d ∈ found, read d = .ok a := by
  cases found with
  | none => simp [takes_none_iff]
  | some d => simp [takes_some_iff]

theorem readName_eq_ok_iff {s : String} : readName d = .ok s ↔ d = .text s := by
  cases d <;> simp [readName]

theorem readField_of_ne (hname : name ≠ "name") (hcount : name ≠ "count")
    (hdamage : name ≠ "damage") : e.readField (name, d) = .ok e := by
  unfold Draft.readField
  split <;> simp_all [pure, Except.pure]

/-- One step: each part of what is known takes what the field has under the part's name. -/
theorem readField_eq_ok_iff : e.readField (name, d) = .ok e' ↔
    Takes readName ([(name, d)].lookup "name") e.name e'.name ∧
    Takes Formula.ofDatum ([(name, d)].lookup "count") e.count e'.count ∧
    Takes Formula.ofDatum ([(name, d)].lookup "damage") e.damage e'.damage := by
  obtain ⟨_, _, _⟩ := e
  obtain ⟨_, _, _⟩ := e'
  by_cases hown : name = "name" ∨ name = "count" ∨ name = "damage"
  · rcases hown with rfl | rfl | rfl
    all_goals
      simp only [Draft.readField, bind_pure_eq_ok_iff, Draft.mk.injEq, lookup_cons,
        List.lookup_nil, takes_none_iff, takes_some_iff, String.reduceEq, if_true, if_false]
      grind
  · simp only [not_or] at hown
    obtain ⟨hname, hcount, hdamage⟩ := hown
    simp [readField_of_ne hname hcount hdamage, lookup_cons, takes_none_iff, Ne.symm hname,
      Ne.symm hcount, Ne.symm hdamage]

/-- Taking from the first field and then from the others is taking from all of them, where no name
comes twice. -/
theorem takes_cons_iff {key : String} (hfirst : ∀ field ∈ fields, name ≠ field.1) :
    Takes read (((name, d) :: fields).lookup key) held taken ↔
      ∃ mid, Takes read ([(name, d)].lookup key) held mid ∧
        Takes read (fields.lookup key) mid taken := by
  rw [lookup_cons, lookup_cons]
  by_cases hkey : key = name
  · subst hkey
    have habsent : fields.lookup key = none := by
      apply List.lookup_eq_none_iff.2
      intro field hfield
      exact bne_iff_ne.2 (hfirst field hfield)
    simp [habsent, takes_none_iff]
  · simp [hkey, takes_none_iff]

theorem foldlM_readField_eq_ok_iff (h : Ascending fields) :
    fields.foldlM Draft.readField e = .ok e' ↔
      Takes readName (fields.lookup "name") e.name e'.name ∧
      Takes Formula.ofDatum (fields.lookup "count") e.count e'.count ∧
      Takes Formula.ofDatum (fields.lookup "damage") e.damage e'.damage := by
  induction fields generalizing e with
  | nil =>
    obtain ⟨_, _, _⟩ := e
    obtain ⟨_, _, _⟩ := e'
    simp [takes_none_iff, pure, Except.pure]
  | cons field fields ih =>
      obtain ⟨name, d⟩ := field
      obtain ⟨hfirst, hrest⟩ := List.pairwise_cons.1 h
      have hne : ∀ field ∈ fields, name ≠ field.1 := fun field hfield ↦ (hfirst field hfield).ne
      simp only [List.foldlM_cons, bind_eq_ok_iff, readField_eq_ok_iff, ih hrest,
        takes_cons_iff hne]
      constructor
      · rintro ⟨mid, ⟨hname, hcount, hdamage⟩, hname', hcount', hdamage'⟩
        exact ⟨⟨_, hname, hname'⟩, ⟨_, hcount, hcount'⟩, _, hdamage, hdamage'⟩
      · rintro ⟨⟨n, hname, hname'⟩, ⟨c, hcount, hcount'⟩, m, hdamage, hdamage'⟩
        exact ⟨⟨n, c, m⟩, ⟨hname, hcount, hdamage⟩, hname', hcount', hdamage'⟩

theorem complete_eq_ok_iff {x : Encounter} : e.complete = .ok x ↔
    e.name = some x.name ∧ e.count = some x.count ∧ e.damage = some x.damage := by
  obtain ⟨name, count, damage⟩ := e
  obtain ⟨_, _, _⟩ := x
  cases name <;> cases count <;> cases damage <;> simp [Draft.complete]

theorem ofFields_eq_ok_iff {x : Encounter} : ofFields fields = .ok x ↔
    (∃ d ∈ field? "name" fields, readName d = .ok x.name) ∧
    (∃ d ∈ field? "count" fields, Formula.ofDatum d = .ok x.count) ∧
    ∃ d ∈ field? "damage" fields, Formula.ofDatum d = .ok x.damage := by
  have hfields := Datum.ascending_byName fields
  simp only [ofFields, bind_eq_ok_iff, foldlM_readField_eq_ok_iff hfields, complete_eq_ok_iff,
    Datum.lookup_byName, ← takes_from_none_iff]
  constructor
  · rintro ⟨draft, ⟨hname, hcount, hdamage⟩, hsame⟩
    rw [hsame.1] at hname
    rw [hsame.2.1] at hcount
    rw [hsame.2.2] at hdamage
    exact ⟨hname, hcount, hdamage⟩
  · intro hfound
    exact ⟨⟨some x.name, some x.count, some x.damage⟩, hfound, rfl, rfl, rfl⟩

theorem exists_ofFields_iff : (∃ x, ofFields fields = .ok x) ↔
    (∃ s, field? "name" fields = some (.text s)) ∧
      (∃ d ∈ field? "count" fields, d.Accepted) ∧ ∃ d ∈ field? "damage" fields, d.Accepted := by
  simp only [ofFields_eq_ok_iff, readName_eq_ok_iff, Datum.accepted_iff]
  constructor
  · rintro ⟨x, ⟨_, hname, rfl⟩, ⟨count, hcount, hcountRead⟩, damage, hdamage, hdamageRead⟩
    exact ⟨⟨_, hname⟩, ⟨count, hcount, _, hcountRead⟩, damage, hdamage, _, hdamageRead⟩
  · rintro ⟨⟨s, hname⟩, ⟨count, hcount, f, hcountRead⟩, damage, hdamage, g, hdamageRead⟩
    exact ⟨⟨s, f, g⟩, ⟨_, hname, rfl⟩, ⟨count, hcount, hcountRead⟩, damage, hdamage, hdamageRead⟩

theorem ofItems_eq_ok_iff {items : List Datum} {x : Encounter} : ofItems items = .ok x ↔
    ∃ count damage, items = [.text x.name, count, damage] ∧
      Formula.ofDatum count = .ok x.count ∧ Formula.ofDatum damage = .ok x.damage := by
  match items with
  | [] => simp [ofItems]
  | [name] => simp [ofItems, bind_eq_ok_iff]
  | [name, count] => simp [ofItems, bind_eq_ok_iff]
  | [name, count, damage] =>
    obtain ⟨_, _, _⟩ := x
    simp [ofItems, bind_eq_ok_iff, readName_eq_ok_iff, pure, Except.pure]
  | name :: count :: damage :: other :: rest => simp [ofItems, bind_eq_ok_iff]

theorem exists_ofItems_iff {items : List Datum} : (∃ x, ofItems items = .ok x) ↔
    ∃ s count damage, items = [.text s, count, damage] ∧ count.Accepted ∧ damage.Accepted := by
  simp only [ofItems_eq_ok_iff, Datum.accepted_iff]
  constructor
  · rintro ⟨x, count, damage, hitems, hcount, hdamage⟩
    exact ⟨_, count, damage, hitems, ⟨_, hcount⟩, _, hdamage⟩
  · rintro ⟨s, count, damage, hitems, ⟨f, hcount⟩, g, hdamage⟩
    exact ⟨⟨s, f, g⟩, count, damage, hitems, hcount, hdamage⟩

end Encounter

/-! ## Reading a container -/

namespace Shape

open Datum (Ascending field?)

variable {shape : Shape} {d : Datum} {c : Container}

/-- What a datum is read as, place by place. -/
inductive Reads : Shape → Datum → Container → Prop
  | list {items : List Datum} {fs : List Formula}
      (h : List.Forall₂ (fun d f ↦ Formula.ofDatum d = .ok f) items fs) :
      Reads .list (.list items) (.list fs)
  | null : Reads .option .null (.option none)
  | unit : Reads .option .unit (.option none)
  | some {d : Datum} {f : Formula} (h : Formula.ofDatum d = .ok f) :
      Reads .option d (.option (some f))
  | map {fields : List (String × Datum)} {entries : List (String × Formula)}
      (h : List.Forall₂ (fun field entry ↦ field.1 = entry.1 ∧ Formula.ofDatum field.2 = .ok entry.2)
        (Datum.byName fields) entries) :
      Reads .map (.record fields) (.map entries)
  | fields {fields : List (String × Datum)} {e : Encounter} {count damage : Datum}
      (hname : field? "name" fields = Option.some (.text e.name))
      (hcount : field? "count" fields = Option.some count)
      (hdamage : field? "damage" fields = Option.some damage)
      (hcountRead : Formula.ofDatum count = .ok e.count)
      (hdamageRead : Formula.ofDatum damage = .ok e.damage) :
      Reads .encounter (.record fields) (.encounter e)
  | items {e : Encounter} {count damage : Datum}
      (hcountRead : Formula.ofDatum count = .ok e.count)
      (hdamageRead : Formula.ofDatum damage = .ok e.damage) :
      Reads .encounter (.list [.text e.name, count, damage]) (.encounter e)

theorem readEntry_eq_ok_iff {field : String × Datum} {entry : String × Formula} :
    readEntry field = .ok entry ↔ field.1 = entry.1 ∧ Formula.ofDatum field.2 = .ok entry.2 := by
  obtain ⟨name, d⟩ := field
  obtain ⟨other, f⟩ := entry
  simp only [readEntry, bind_pure_eq_ok_iff, Prod.mk.injEq]
  grind

theorem exists_readEntry_iff {field : String × Datum} :
    (∃ entry, readEntry field = .ok entry) ↔ field.2.Accepted := by
  rw [Datum.accepted_iff]
  exact exists_bind_pure_iff

theorem readEntry_eq_error_iff {field : String × Datum} {e : ReadError} :
    readEntry field = .error e ↔ Formula.ofDatum field.2 = .error e :=
  bind_pure_eq_error_iff

theorem read_eq_ok_iff : shape.read d = .ok c ↔ Reads shape d c := by
  constructor
  · intro h
    unfold read at h
    split at h
    · obtain ⟨fs, hfs, ⟨⟩⟩ := bind_eq_ok_iff.1 h
      exact .list (mapM_eq_ok_iff.1 hfs)
    · cases h
    · cases h
      exact .null
    · cases h
      exact .unit
    · obtain ⟨f, hf, ⟨⟩⟩ := bind_eq_ok_iff.1 h
      exact .some hf
    · obtain ⟨entries, hentries, ⟨⟩⟩ := bind_eq_ok_iff.1 h
      apply Reads.map
      simpa only [readEntry_eq_ok_iff] using mapM_eq_ok_iff.1 hentries
    · cases h
    · obtain ⟨e, he, ⟨⟩⟩ := bind_eq_ok_iff.1 h
      obtain ⟨⟨_, hname, hnameRead⟩, ⟨count, hcount, hcountRead⟩, damage, hdamage, hdamageRead⟩ :=
        Encounter.ofFields_eq_ok_iff.1 he
      obtain rfl := Encounter.readName_eq_ok_iff.1 hnameRead
      exact .fields hname hcount hdamage hcountRead hdamageRead
    · obtain ⟨e, he, ⟨⟩⟩ := bind_eq_ok_iff.1 h
      obtain ⟨count, damage, rfl, hcountRead, hdamageRead⟩ := Encounter.ofItems_eq_ok_iff.1 he
      exact .items hcountRead hdamageRead
    · cases h
  · intro h
    cases h with
    | list h => exact bind_eq_ok_iff.2 ⟨_, mapM_eq_ok_iff.2 h, rfl⟩
    | null => rfl
    | unit => rfl
    | some h =>
        obtain ⟨text, rfl, -⟩ := Formula.ofDatum_eq_ok_iff.1 h
        exact bind_eq_ok_iff.2 ⟨_, h, rfl⟩
    | map h =>
        refine bind_eq_ok_iff.2 ⟨_, mapM_eq_ok_iff.2 ?_, rfl⟩
        simpa only [readEntry_eq_ok_iff] using h
    | fields hname hcount hdamage hcountRead hdamageRead =>
        refine bind_eq_ok_iff.2 ⟨_, Encounter.ofFields_eq_ok_iff.2 ?_, rfl⟩
        exact ⟨⟨_, hname, rfl⟩, ⟨_, hcount, hcountRead⟩, _, hdamage, hdamageRead⟩
    | items hcountRead hdamageRead =>
        refine bind_eq_ok_iff.2 ⟨_, Encounter.ofItems_eq_ok_iff.2 ?_, rfl⟩
        exact ⟨_, _, rfl, hcountRead, hdamageRead⟩

/-! ## What is accepted, and what gives the error -/

/-- Every place for a formula is there and has an accepted text. A missing optional value is null,
and an encounter has a text for a name besides. -/
def Accepts : Shape → Datum → Prop
  | .list, .list items => ∀ d ∈ items, d.Accepted
  | .option, d => d = .null ∨ d = .unit ∨ d.Accepted
  | .map, .record fields => ∀ name, ∀ d ∈ field? name fields, d.Accepted
  | .encounter, .record fields =>
      (∃ s, field? "name" fields = Option.some (.text s)) ∧
        (∃ d ∈ field? "count" fields, d.Accepted) ∧ ∃ d ∈ field? "damage" fields, d.Accepted
  | .encounter, .list items =>
      ∃ s count damage, items = [.text s, count, damage] ∧ count.Accepted ∧ damage.Accepted
  | _, _ => False

theorem exists_read_iff : (∃ c, shape.read d = .ok c) ↔ shape.Accepts d := by
  cases shape with
  | list =>
      cases d with
      | list items =>
          simp only [read, Accepts, exists_bind_pure_iff, exists_mapM_eq_ok_iff,
            Datum.accepted_iff]
      | _ => simp [read, Accepts]
  | option =>
      cases d with
      | null => simp [read, Accepts, pure, Except.pure]
      | unit => simp [read, Accepts, pure, Except.pure]
      | _ =>
          simp only [read, Accepts, exists_bind_pure_iff, Datum.accepted_iff, reduceCtorEq,
            false_or]
  | map =>
      cases d with
      | record fields =>
          simp only [read, Accepts, exists_bind_pure_iff, exists_mapM_eq_ok_iff,
            Datum.forall_mem_byName_iff, exists_readEntry_iff]
      | _ => simp [read, Accepts]
  | encounter =>
      cases d with
      | record fields =>
          simp only [read, Accepts, exists_bind_pure_iff, Encounter.exists_ofFields_iff]
      | list items =>
          simp only [read, Accepts, exists_bind_pure_iff, Encounter.exists_ofItems_iff]
      | _ => simp [read, Accepts]

/-- The first item that is no formula gives the error of a list. -/
theorem read_list_eq_error_iff {items : List Datum} {e : ReadError} :
    Shape.list.read (.list items) = .error e ↔ ∃ left d right, items = left ++ d :: right ∧
      (∀ b ∈ left, b.Accepted) ∧ Formula.ofDatum d = .error e := by
  simp only [read, bind_pure_eq_error_iff, mapM_eq_error_iff, Datum.accepted_iff]

/-- The field of the least name among those that hold no formula gives the error of a map. -/
theorem read_map_eq_error_iff {fields : List (String × Datum)} {e : ReadError} :
    Shape.map.read (.record fields) = .error e ↔ ∃ name, ∃ d ∈ field? name fields,
      (∀ other < name, ∀ b ∈ field? other fields, b.Accepted) ∧ Formula.ofDatum d = .error e := by
  have hread : Shape.map.read (.record fields) = .error e ↔
      (Datum.byName fields).mapM readEntry = .error e := bind_pure_eq_error_iff
  have hfields := Datum.ascending_byName fields
  simp only [hread, mapM_eq_error_iff, exists_readEntry_iff, readEntry_eq_error_iff]
  constructor
  · rintro ⟨left, ⟨name, d⟩, right, hsplit, hleft, herror⟩
    rw [hsplit] at hfields
    have hd : (name, d) ∈ Datum.byName fields := by simp [hsplit]
    refine ⟨name, d, Datum.mem_byName_iff.1 hd, ?_, herror⟩
    intro other hlt b hb
    have hmem := Datum.mem_byName_iff.2 hb
    rw [hsplit] at hmem
    exact hleft _ (hfields.mem_left_iff.2 ⟨hmem, hlt⟩)
  · rintro ⟨name, d, hd, hlesser, herror⟩
    obtain ⟨left, right, hsplit⟩ := List.append_of_mem (Datum.mem_byName_iff.2 hd)
    refine ⟨left, (name, d), right, hsplit, ?_, herror⟩
    rintro ⟨other, b⟩ hb
    rw [hsplit] at hfields
    obtain ⟨hmem, hlt⟩ := hfields.mem_left_iff.1 hb
    rw [← hsplit] at hmem
    exact hlesser other hlt b (Datum.mem_byName_iff.1 hmem)

end Shape

end Tabletop
