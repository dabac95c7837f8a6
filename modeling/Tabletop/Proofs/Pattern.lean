import Mathlib
import Tabletop.Proofs.Grammar

/-!
# Formulas by a pattern

A pattern is matched leftmost first. Its ways through a text stand in the order in which they are
tried, and the first way from the earliest place is the match. The pattern of formulas matches just
the texts of the grammar, and keeps their parts.
-/

namespace Tabletop

open Text.Decimal

inductive Pattern where
  | start
  | stop
  | empty
  | one (admits : Char → Bool)
  | seq (p q : Pattern)
  | maybe (p : Pattern)
  | group (name : String) (p : Pattern)

namespace Pattern

def atMost (p : Pattern) : Nat → Pattern
  | 0 => empty
  | most + 1 => maybe (p.seq (p.atMost most))

def counted (p : Pattern) : Nat → Nat → Pattern
  | 0, most => p.atMost most
  | least + 1, most => p.seq (p.counted least (most - 1))

/-- What the groups of a pattern have matched, by their names. -/
abbrev Groups := List (String × List Char)

/-- The ways through a pattern from a place in the whole text, the preferred ones first. A place is
given by what follows it. -/
def ways (whole : List Char) : Pattern → List Char → List (Groups × List Char)
  | start, text => if text.length = whole.length then [([], text)] else []
  | stop, text => if text = [] then [([], text)] else []
  | empty, text => [([], text)]
  | one admits, text =>
      match text with
      | [] => []
      | c :: rest => if admits c then [([], rest)] else []
  | seq p q, text =>
      (p.ways whole text).flatMap fun (first, middle) ↦
        (q.ways whole middle).map fun (second, rest) ↦ (first ++ second, rest)
  | maybe p, text => p.ways whole text ++ [([], text)]
  | group name p, text =>
      (p.ways whole text).map fun (inner, rest) ↦
        ((name, text.take (text.length - rest.length)) :: inner, rest)

/-- The groups of the leftmost-first match. -/
def search (p : Pattern) (text : List Char) : Option Groups :=
  text.tails.findSome? fun rest ↦ (p.ways text rest).head?.map Prod.fst

def digits (name : String) (least most : Nat) : Pattern :=
  group name ((one Char.isDigit).counted least most)

def sign : Pattern :=
  group "sign" (one fun c ↦ c == '+' || c == '-')

def suffix : Pattern :=
  maybe (sign.seq (digits "amount" 0 2))

def formula : Pattern :=
  start.seq ((digits "count" 0 3).seq ((one (· == 'd')).seq
    ((digits "sides" 1 3).seq (suffix.seq stop))))

variable {whole text rest : List Char} {groups : Groups}

/-! ## The ways through a pattern -/

theorem mem_ways_seq {p q : Pattern} :
    (groups, rest) ∈ (seq p q).ways whole text ↔
      ∃ first middle second, (first, middle) ∈ p.ways whole text ∧
        (second, rest) ∈ q.ways whole middle ∧ groups = first ++ second := by
  simp only [ways, List.mem_flatMap, List.mem_map, Prod.exists, Prod.mk.injEq]
  constructor
  · intro hway
    obtain ⟨first, middle, hfirst, second, _, hsecond, rfl, rfl⟩ := hway
    exact ⟨first, middle, second, hfirst, hsecond, rfl⟩
  · intro hway
    obtain ⟨first, middle, second, hfirst, hsecond, rfl⟩ := hway
    exact ⟨first, middle, hfirst, second, rest, hsecond, rfl, rfl⟩

theorem mem_ways_one {admits : Char → Bool} :
    (groups, rest) ∈ (one admits).ways whole text ↔
      groups = [] ∧ ∃ c, admits c = true ∧ text = c :: rest := by
  cases text with
  | nil => simp [ways]
  | cons c tail =>
      rw [ways]
      constructor
      · intro h
        by_cases hc : admits c = true
        · rw [if_pos hc, List.mem_singleton, Prod.mk.injEq] at h
          exact ⟨h.1, c, hc, by rw [h.2]⟩
        · rw [if_neg hc] at h
          cases h
      · intro hway
        obtain ⟨rfl, c, hc, heq⟩ := hway
        obtain ⟨rfl, rfl⟩ := List.cons.inj heq
        rw [if_pos hc]
        exact List.mem_singleton_self _

theorem mem_ways_maybe {p : Pattern} :
    (groups, rest) ∈ (maybe p).ways whole text ↔
      (groups, rest) ∈ p.ways whole text ∨ groups = [] ∧ rest = text := by
  rw [ways, List.mem_append, List.mem_singleton, Prod.mk.injEq]

theorem mem_ways_one_seq {admits : Char → Bool} {p : Pattern} :
    (groups, rest) ∈ (seq (one admits) p).ways whole text ↔
      ∃ c tail, admits c = true ∧ text = c :: tail ∧ (groups, rest) ∈ p.ways whole tail := by
  rw [mem_ways_seq]
  constructor
  · intro hway
    obtain ⟨first, middle, second, hfirst, hsecond, rfl⟩ := hway
    obtain ⟨rfl, c, hc, rfl⟩ := mem_ways_one.1 hfirst
    exact ⟨c, middle, hc, rfl, hsecond⟩
  · intro hway
    obtain ⟨c, tail, hc, rfl, h⟩ := hway
    exact ⟨[], tail, groups, mem_ways_one.2 ⟨rfl, c, hc, rfl⟩, h, rfl⟩

theorem mem_ways_atMost {admits : Char → Bool} {most : Nat} :
    (groups, rest) ∈ ((one admits).atMost most).ways whole text ↔
      groups = [] ∧ ∃ run, run ++ rest = text ∧ run.length ≤ most ∧
        ∀ c ∈ run, admits c = true := by
  induction most generalizing text with
  | zero =>
      rw [atMost, ways, List.mem_singleton, Prod.mk.injEq]
      constructor
      · intro hway
        obtain ⟨rfl, rfl⟩ := hway
        exact ⟨rfl, [], rfl, le_rfl, by simp⟩
      · intro hway
        obtain ⟨rfl, run, rfl, hlength, -⟩ := hway
        rw [List.length_eq_zero_iff.1 (Nat.le_zero.1 hlength)]
        exact ⟨rfl, rfl⟩
  | succ most ih =>
      rw [atMost, mem_ways_maybe, mem_ways_one_seq]
      constructor
      · intro hway
        rcases hway with ⟨c, tail, hc, rfl, h⟩ | ⟨rfl, rfl⟩
        · obtain ⟨rfl, run, rfl, hlength, hrun⟩ := ih.1 h
          exact ⟨rfl, c :: run, rfl, Nat.succ_le_succ hlength, List.forall_mem_cons.2 ⟨hc, hrun⟩⟩
        · exact ⟨rfl, [], rfl, Nat.zero_le _, by simp⟩
      · intro hway
        obtain ⟨rfl, run, rfl, hlength, hrun⟩ := hway
        cases run with
        | nil => exact .inr ⟨rfl, rfl⟩
        | cons c run =>
            obtain ⟨hc, hrun⟩ := List.forall_mem_cons.1 hrun
            exact .inl ⟨c, run ++ rest, hc, rfl,
              ih.2 ⟨rfl, run, rfl, Nat.le_of_succ_le_succ hlength, hrun⟩⟩

theorem mem_ways_counted {admits : Char → Bool} {least most : Nat} (hle : least ≤ most) :
    (groups, rest) ∈ ((one admits).counted least most).ways whole text ↔
      groups = [] ∧ ∃ run, run ++ rest = text ∧ least ≤ run.length ∧ run.length ≤ most ∧
        ∀ c ∈ run, admits c = true := by
  induction least generalizing most text with
  | zero => simp only [counted, mem_ways_atMost, Nat.zero_le, true_and]
  | succ least ih =>
      have hpred : least ≤ most - 1 := Nat.le_sub_one_of_lt hle
      rw [counted, mem_ways_one_seq]
      constructor
      · intro hway
        obtain ⟨c, tail, hc, rfl, h⟩ := hway
        obtain ⟨rfl, run, rfl, hleast, hmost, hrun⟩ := (ih hpred).1 h
        refine ⟨rfl, c :: run, rfl, Nat.succ_le_succ hleast, ?_,
          List.forall_mem_cons.2 ⟨hc, hrun⟩⟩
        rw [List.length_cons]
        omega
      · intro hway
        obtain ⟨rfl, run, rfl, hleast, hmost, hrun⟩ := hway
        cases run with
        | nil => cases hleast
        | cons c run =>
            obtain ⟨hc, hrun⟩ := List.forall_mem_cons.1 hrun
            exact ⟨c, run ++ rest, hc, rfl, (ih hpred).2
              ⟨rfl, run, rfl, Nat.le_of_succ_le_succ hleast, Nat.le_sub_one_of_lt hmost, hrun⟩⟩

theorem mem_ways_group {name : String} {p : Pattern} :
    (groups, rest) ∈ (group name p).ways whole text ↔
      ∃ inner, (inner, rest) ∈ p.ways whole text ∧
        groups = (name, text.take (text.length - rest.length)) :: inner := by
  simp only [ways, List.mem_map, Prod.exists, Prod.mk.injEq]
  constructor
  · intro hway
    obtain ⟨inner, _, h, rfl, rfl⟩ := hway
    exact ⟨inner, h, rfl⟩
  · intro hway
    obtain ⟨inner, h, rfl⟩ := hway
    exact ⟨inner, rest, h, rfl, rfl⟩

theorem mem_ways_digits {name : String} {least most : Nat} (hle : least ≤ most) :
    (groups, rest) ∈ (digits name least most).ways whole text ↔
      ∃ run, Digits least most run ∧ run ++ rest = text ∧ groups = [(name, run)] := by
  simp only [digits, mem_ways_group, mem_ways_counted hle, isDigit_iff]
  constructor
  · intro hway
    obtain ⟨inner, ⟨rfl, run, rfl, hrun⟩, rfl⟩ := hway
    exact ⟨run, hrun, rfl, by simp⟩
  · intro hway
    obtain ⟨run, hrun, rfl, rfl⟩ := hway
    exact ⟨[], ⟨rfl, run, rfl, hrun⟩, by simp⟩

theorem mem_ways_digits_seq {name : String} {least most : Nat} (hle : least ≤ most) {p : Pattern} :
    (groups, rest) ∈ ((digits name least most).seq p).ways whole text ↔
      ∃ run tail others, Digits least most run ∧ run ++ tail = text ∧
        (others, rest) ∈ p.ways whole tail ∧ groups = (name, run) :: others := by
  simp only [mem_ways_seq, mem_ways_digits hle]
  constructor
  · intro hway
    obtain ⟨_, tail, others, ⟨run, hrun, rfl, rfl⟩, hothers, rfl⟩ := hway
    exact ⟨run, tail, others, hrun, rfl, hothers, rfl⟩
  · intro hway
    obtain ⟨run, tail, others, hrun, rfl, hothers, rfl⟩ := hway
    exact ⟨_, tail, others, ⟨run, hrun, rfl, rfl⟩, hothers, rfl⟩

theorem mem_ways_sign :
    (groups, rest) ∈ sign.ways whole text ↔
      ∃ s : Sign, s.symbol :: rest = text ∧ groups = [("sign", [s.symbol])] := by
  rw [sign, mem_ways_group]
  simp only [mem_ways_one, Bool.or_eq_true, beq_iff_eq]
  constructor
  · intro hway
    obtain ⟨inner, ⟨rfl, c, rfl | rfl, rfl⟩, rfl⟩ := hway
    · exact ⟨.plus, rfl, by simp [Sign.symbol]⟩
    · exact ⟨.minus, rfl, by simp [Sign.symbol]⟩
  · intro hway
    obtain ⟨s, rfl, rfl⟩ := hway
    refine ⟨[], ⟨rfl, s.symbol, ?_, rfl⟩, by simp⟩
    cases s
    · exact .inl rfl
    · exact .inr rfl

theorem mem_ways_suffix :
    (groups, rest) ∈ suffix.ways whole text ↔
      (∃ (s : Sign) (amount : List Char), Digits 0 2 amount ∧ s.symbol :: (amount ++ rest) = text ∧
        groups = [("sign", [s.symbol]), ("amount", amount)]) ∨ groups = [] ∧ rest = text := by
  rw [suffix, mem_ways_maybe, mem_ways_seq]
  simp only [mem_ways_sign, mem_ways_digits (Nat.zero_le _)]
  apply or_congr_left
  constructor
  · intro hway
    obtain ⟨_, _, _, ⟨s, rfl, rfl⟩, ⟨amount, hamount, rfl, rfl⟩, rfl⟩ := hway
    exact ⟨s, amount, hamount, rfl, rfl⟩
  · intro hway
    obtain ⟨s, amount, hamount, rfl, rfl⟩ := hway
    exact ⟨_, amount ++ rest, _, ⟨s, rfl, rfl⟩, ⟨amount, hamount, rfl, rfl⟩, rfl⟩

theorem mem_ways_start_seq {p : Pattern} :
    (groups, rest) ∈ (start.seq p).ways whole text ↔
      text.length = whole.length ∧ (groups, rest) ∈ p.ways whole text := by
  rw [mem_ways_seq, ways]
  by_cases hlength : text.length = whole.length
  · simp [hlength]
  · simp [hlength]

theorem mem_ways_seq_stop {p : Pattern} :
    (groups, rest) ∈ (p.seq stop).ways whole text ↔
      rest = [] ∧ (groups, []) ∈ p.ways whole text := by
  rw [mem_ways_seq]
  constructor
  · intro hway
    obtain ⟨first, middle, second, hfirst, hsecond, rfl⟩ := hway
    rw [ways] at hsecond
    split_ifs at hsecond with hmiddle
    · subst hmiddle
      rw [List.mem_singleton, Prod.mk.injEq] at hsecond
      obtain ⟨rfl, rfl⟩ := hsecond
      exact ⟨rfl, by rwa [List.append_nil]⟩
    · cases hsecond
  · intro hway
    obtain ⟨rfl, h⟩ := hway
    exact ⟨groups, [], [], h, by simp [ways], by simp⟩

end Pattern

namespace Written

/-- The parts as the pattern names them. -/
def groups (w : Written) : Pattern.Groups :=
  ("count", w.count) :: ("sides", w.sides) ::
    match w.suffix with
    | none => []
    | some (sign, amount) => [("sign", [sign.symbol]), ("amount", amount)]

end Written

namespace Pattern

/-! ## The pattern of formulas -/

theorem mem_ways_formula {whole text rest : List Char} {groups : Groups} :
    (groups, rest) ∈ formula.ways whole text ↔
      text.length = whole.length ∧ rest = [] ∧
        ∃ w : Written, w.Spells text ∧ groups = w.groups := by
  have hle : 1 ≤ 3 := by decide
  rw [formula, mem_ways_start_seq]
  apply and_congr_right
  intro _
  constructor
  · intro hway
    obtain ⟨count, _, _, hcount, rfl, hd, rfl⟩ := (mem_ways_digits_seq (Nat.zero_le _)).1 hway
    obtain ⟨c, _, hc, rfl, hafter⟩ := mem_ways_one_seq.1 hd
    obtain ⟨sides, _, _, hsides, rfl, hend, rfl⟩ := (mem_ways_digits_seq hle).1 hafter
    obtain ⟨rfl, hsuffix⟩ := mem_ways_seq_stop.1 hend
    obtain rfl := beq_iff_eq.1 hc
    refine ⟨rfl, ?_⟩
    rcases mem_ways_suffix.1 hsuffix with ⟨s, amount, hamount, rfl, rfl⟩ | ⟨rfl, rfl⟩
    · rw [List.append_nil]
      exact ⟨_, .signed s hcount hsides hamount, rfl⟩
    · rw [List.append_nil]
      exact ⟨_, .plain hcount hsides, rfl⟩
  · intro hparts
    obtain ⟨rfl, w, hw, rfl⟩ := hparts
    cases hw with
    | @plain count sides hcount hsides =>
        have hsuffix : ([], []) ∈ suffix.ways whole [] := mem_ways_suffix.2 (.inr ⟨rfl, rfl⟩)
        have hafter : ([("sides", sides)], []) ∈
            ((digits "sides" 1 3).seq (suffix.seq stop)).ways whole sides :=
          (mem_ways_digits_seq hle).2
            ⟨sides, [], [], hsides, List.append_nil _, mem_ways_seq_stop.2 ⟨rfl, hsuffix⟩, rfl⟩
        apply (mem_ways_digits_seq (Nat.zero_le _)).2
        refine ⟨count, _, _, hcount, rfl, ?_, rfl⟩
        exact mem_ways_one_seq.2 ⟨'d', sides, rfl, rfl, hafter⟩
    | @signed count sides amount s hcount hsides hamount =>
        have hsuffix : ([("sign", [s.symbol]), ("amount", amount)], []) ∈
            suffix.ways whole (s.symbol :: amount) :=
          mem_ways_suffix.2 (.inl ⟨s, amount, hamount, by rw [List.append_nil], rfl⟩)
        have hafter : ([("sides", sides), ("sign", [s.symbol]), ("amount", amount)], []) ∈
            ((digits "sides" 1 3).seq (suffix.seq stop)).ways whole (sides ++ s.symbol :: amount) :=
          (mem_ways_digits_seq hle).2
            ⟨sides, _, _, hsides, rfl, mem_ways_seq_stop.2 ⟨rfl, hsuffix⟩, rfl⟩
        apply (mem_ways_digits_seq (Nat.zero_le _)).2
        refine ⟨count, _, _, hcount, rfl, ?_, rfl⟩
        exact mem_ways_one_seq.2 ⟨'d', _, rfl, rfl, hafter⟩

/-- A pattern that begins at the start of the text is not found anywhere else. -/
theorem search_start_seq (p : Pattern) (text : List Char) :
    (start.seq p).search text = ((start.seq p).ways text text).head?.map Prod.fst := by
  cases text with
  | nil =>
      rw [search, List.tails, List.findSome?_cons, List.findSome?_nil]
      cases ((start.seq p).ways [] []).head?.map Prod.fst <;> rfl
  | cons c text =>
      have hlater : ∀ rest ∈ text.tails,
          ((start.seq p).ways (c :: text) rest).head?.map Prod.fst = none := by
        intro rest hrest
        rw [Option.map_eq_none_iff, List.head?_eq_none_iff, List.eq_nil_iff_forall_not_mem]
        rintro ⟨groups, rest'⟩ hway
        have hlength := (mem_ways_start_seq.1 hway).1
        have hle := ((List.mem_tails _ _).1 hrest).length_le
        rw [List.length_cons] at hlength
        omega
      rw [search, List.tails_cons, List.findSome?_cons, List.findSome?_eq_none_iff.2 hlater]
      cases ((start.seq p).ways (c :: text) (c :: text)).head?.map Prod.fst <;> rfl

/-- The pattern finds the texts of the grammar and no others, and captures their parts. -/
theorem search_formula_eq_some_iff {text : List Char} {groups : Groups} :
    formula.search text = some groups ↔ ∃ w : Written, w.Spells text ∧ groups = w.groups := by
  have hsearch : formula.search text = (formula.ways text text).head?.map Prod.fst :=
    search_start_seq _ text
  rw [hsearch, Option.map_eq_some_iff]
  constructor
  · intro hway
    obtain ⟨⟨_, rest⟩, hhead, rfl⟩ := hway
    exact (mem_ways_formula.1 (List.mem_of_head? hhead)).2.2
  · intro hway
    obtain ⟨w, hw, rfl⟩ := hway
    have hmem : (w.groups, []) ∈ formula.ways text text := mem_ways_formula.2 ⟨rfl, rfl, w, hw, rfl⟩
    cases hhead : (formula.ways text text).head? with
    | none =>
        rw [List.head?_eq_none_iff.1 hhead] at hmem
        cases hmem
    | some way =>
        -- The way that is tried first may be another, but it captures the same parts.
        obtain ⟨-, -, v, hv, hgroups⟩ := mem_ways_formula.1 (List.mem_of_head? hhead)
        exact ⟨way, rfl, by rw [hgroups, hv.unique hw]⟩

end Pattern

end Tabletop
