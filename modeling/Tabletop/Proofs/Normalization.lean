import Mathlib
import Tabletop.Proofs.Canonical

/-!
# Normal texts

Reading a text and writing it again strikes out leading zeros and a suffix of zeros, and puts a `1`
where no count is left. The texts that this leaves as they are, and the texts that come of it, are
those of one pattern.
-/

namespace Tabletop

open Text.Decimal

namespace Written

/-- A sign stays where a digit other than `0` follows it. -/
def normalSuffix : Option (Sign × List Char) → List Char
  | none => []
  | some (sign, amount) =>
      if amount.any (· != '0') then sign.symbol :: significant amount else []

/-- The text of the parts without leading zeros and without a suffix of zeros, and with a count of
`1` where none is left. It is found by looking at digits, and not at the numbers they stand for. -/
def normalized (w : Written) : List Char :=
  (if significant w.count = [] then ['1'] else significant w.count) ++
    'd' :: significant w.sides ++ normalSuffix w.suffix

variable {w : Written} {f : Formula} {least most : Nat}

theorem any_ne_zero_iff {digits : List Char} (h : Digits least most digits) :
    digits.any (· != '0') = true ↔ value digits ≠ 0 := by
  rw [ne_eq, value_eq_zero_iff h.2.2, List.any_eq_true]
  simp only [bne_iff_ne, ne_eq, not_forall, exists_prop]

theorem normalSuffix_some {sign : Sign} {amount : List Char} (h : Digits least most amount) :
    normalSuffix (some (sign, amount)) =
      if value amount = 0 then [] else sign.symbol :: write (value amount) := by
  rw [normalSuffix]
  by_cases hzero : value amount = 0
  · rw [if_pos hzero, if_neg fun htells ↦ (any_ne_zero_iff h).1 htells hzero]
  · rw [if_neg hzero, if_pos ((any_ne_zero_iff h).2 hzero), write_value h.2.2]
    rwa [ne_eq, ← value_eq_zero_iff_significant h]

theorem Denotes.map_adjustment (hf : w.Denotes f) :
    f.adjustment.map (fun a ↦ (a.sign, a.amount.toNat)) =
      w.suffix.map fun (sign, amount) ↦ (sign, value amount) := by
  have hsign := hf.sign
  have hamount := hf.amount
  rw [Formula.sign?] at hsign
  rw [Formula.amount?] at hamount
  cases hadjustment : f.adjustment <;> cases hsuffix : w.suffix <;> simp_all

theorem Denotes.write_count (hf : w.Denotes f) (hcount : Digits 0 3 w.count) :
    write f.count.toNat = if significant w.count = [] then ['1'] else significant w.count := by
  rw [hf.count, if_congr significant_eq_nil_iff.symm rfl rfl]
  split_ifs with hnone
  · rfl
  · exact write_value hcount.2.2 hnone

theorem Denotes.write_suffix (hf : w.Denotes f) (hamount : ∀ s ∈ w.suffix, Digits 0 2 s.2) :
    (f.effective.map Adjustment.chars).getD [] = normalSuffix w.suffix := by
  have hadjustment := hf.map_adjustment
  cases hsuffix : w.suffix with
  | none =>
      rw [hsuffix, Option.map_none, Option.map_eq_none_iff] at hadjustment
      rw [Formula.effective, hadjustment]
      rfl
  | some suffix =>
      obtain ⟨sign, amount⟩ := suffix
      rw [hsuffix] at hadjustment
      obtain ⟨a, ha, hpair⟩ := Option.map_eq_some_iff.1 hadjustment
      obtain ⟨rfl, hvalue⟩ := Prod.mk.inj hpair
      rw [normalSuffix_some (hamount _ hsuffix), ← hvalue]
      by_cases hzero : a.amount = 0
      · have hnone : f.effective = none := by
          refine Formula.effective_eq_none_iff.2 (.inr ?_)
          rw [Formula.amount?, ha, Option.map_some, hzero]
        rw [hnone, hzero]
        rfl
      · have hsome : f.effective = some a := Formula.effective_eq_some_iff.2 ⟨ha, hzero⟩
        rw [hsome, if_neg (Formula.amount_pos_of_effective hsome).ne']
        rfl

/-- The canonical text of a formula is the text that it was read from, less what does not tell. -/
theorem Spells.canonicalChars_eq {text : List Char} (h : w.Spells text)
    (hsides : value w.sides ≠ 0) (hf : w.Denotes f) : f.canonicalChars = w.normalized := by
  obtain ⟨hcountDigits, hsidesDigits, hamountDigits⟩ := h.digits
  have hwritten : write f.sides.toNat = significant w.sides := by
    rw [hf.sides, write_value hsidesDigits.2.2]
    rwa [ne_eq, ← value_eq_zero_iff_significant hsidesDigits]
  rw [Formula.canonicalChars, hf.write_count hcountDigits, hwritten, hf.write_suffix hamountDigits,
    normalized]

example : normalized ⟨['0', '0'], ['0', '6'], some (.plus, ['0', '0'])⟩ = ['1', 'd', '6'] := by
  decide

theorem Proper.normalized_eq (h : w.Proper) : w.normalized = w.toChars := by
  obtain ⟨hcount, hsides, hamount⟩ := h
  rw [normalized, toChars, hcount.significant_eq, hsides.significant_eq, if_neg hcount.ne_nil]
  cases hsuffix : w.suffix with
  | none => rfl
  | some suffix =>
      have hproper := hamount suffix hsuffix
      rw [normalSuffix, if_pos ((any_ne_zero_iff hproper.toDigits).2 hproper.value_ne_zero),
        hproper.significant_eq]
      rfl

end Written

namespace Pattern

/-- Some way through the pattern leads from the start of the text to its end. -/
def Matches (p : Pattern) (text : List Char) : Prop :=
  ∃ groups, (groups, []) ∈ p.ways text text

/-- A digit from `1` to `9` and up to `more` digits after it. -/
def proper (more : Nat) : Pattern :=
  (one fun c ↦ '1' ≤ c && c ≤ '9').seq ((one Char.isDigit).atMost more)

def canonical : Pattern :=
  (proper 2).seq ((one (· == 'd')).seq ((proper 2).seq (maybe (sign.seq (proper 1)))))

variable {whole text rest : List Char} {groups : Groups} {more : Nat}

theorem mem_ways_proper :
    (groups, rest) ∈ (proper more).ways whole text ↔
      groups = [] ∧ ∃ run, Proper more run ∧ run ++ rest = text := by
  simp only [proper, mem_ways_one_seq, mem_ways_atMost, Bool.and_eq_true, decide_eq_true_eq,
    isDigit_iff]
  constructor
  · intro hway
    obtain ⟨c, _, hc, rfl, rfl, run, rfl, hlength, hrun⟩ := hway
    exact ⟨rfl, c :: run, .intro hc ⟨Nat.zero_le _, hlength, hrun⟩, rfl⟩
  · intro hway
    obtain ⟨rfl, _, ⟨hc, hrun⟩, rfl⟩ := hway
    exact ⟨_, _, hc, rfl, rfl, _, rfl, hrun.2⟩

theorem mem_ways_proper_seq {p : Pattern} :
    (groups, rest) ∈ ((proper more).seq p).ways whole text ↔
      ∃ run tail, Proper more run ∧ run ++ tail = text ∧ (groups, rest) ∈ p.ways whole tail := by
  simp only [mem_ways_seq, mem_ways_proper]
  constructor
  · intro hway
    obtain ⟨_, tail, _, ⟨rfl, run, hrun, rfl⟩, htail, rfl⟩ := hway
    exact ⟨run, tail, hrun, rfl, htail⟩
  · intro hway
    obtain ⟨run, tail, hrun, rfl, htail⟩ := hway
    exact ⟨[], tail, groups, ⟨rfl, run, hrun, rfl⟩, htail, rfl⟩

theorem mem_ways_proper_suffix :
    (groups, rest) ∈ (maybe (sign.seq (proper more))).ways whole text ↔
      (∃ (s : Sign) (amount : List Char), Proper more amount ∧
        s.symbol :: (amount ++ rest) = text ∧ groups = [("sign", [s.symbol])]) ∨
          groups = [] ∧ rest = text := by
  simp only [mem_ways_maybe, mem_ways_seq, mem_ways_sign, mem_ways_proper]
  apply or_congr_left
  constructor
  · intro hway
    obtain ⟨_, _, _, ⟨s, rfl, rfl⟩, ⟨rfl, amount, hamount, rfl⟩, rfl⟩ := hway
    exact ⟨s, amount, hamount, rfl, rfl⟩
  · intro hway
    obtain ⟨s, amount, hamount, rfl, rfl⟩ := hway
    exact ⟨_, amount ++ rest, [], ⟨s, rfl, rfl⟩, ⟨rfl, amount, hamount, rfl⟩, rfl⟩

/-- The pattern matches the texts whose parts are proper numbers. -/
theorem canonical_matches_iff :
    canonical.Matches text ↔ ∃ w : Written, w.Proper ∧ w.toChars = text := by
  simp only [Matches, canonical, mem_ways_proper_seq, mem_ways_one_seq, mem_ways_proper_suffix,
    beq_iff_eq, List.append_nil]
  constructor
  · intro hway
    obtain ⟨_, count, _, hcount, rfl, _, _, rfl, rfl, sides, _, hsides, rfl, hend⟩ := hway
    rcases hend with ⟨s, amount, hamount, rfl, -⟩ | ⟨-, rfl⟩
    · refine ⟨⟨count, sides, some (s, amount)⟩, ⟨hcount, hsides, ?_⟩, ?_⟩
      · rintro _ ⟨⟩
        exact hamount
      · simp [Written.toChars]
    · refine ⟨⟨count, sides, none⟩, ⟨hcount, hsides, ?_⟩, ?_⟩
      · rintro _ ⟨⟩
      · simp [Written.toChars]
  · intro hparts
    obtain ⟨⟨count, sides, suffix⟩, ⟨hcount, hsides, hamount⟩, rfl⟩ := hparts
    cases suffix with
    | none =>
        exact ⟨[], count, 'd' :: sides, hcount, by simp [Written.toChars], 'd', sides, rfl, rfl,
          sides, [], hsides, List.append_nil _, .inr ⟨rfl, rfl⟩⟩
    | some suffix =>
        obtain ⟨s, amount⟩ := suffix
        exact ⟨_, count, 'd' :: (sides ++ s.symbol :: amount), hcount, by simp [Written.toChars],
          'd', _, rfl, rfl, sides, _, hsides, rfl, .inl ⟨s, amount, hamount _ rfl, rfl, rfl⟩⟩

end Pattern

namespace Formula

variable {f : Formula}

theorem exists_parse_of_proper {w : Written} (h : w.Proper) :
    ∃ f, parse (String.ofList w.toChars) = .ok f ∧ f.canonical = String.ofList w.toChars := by
  have hspells : w.Spells (String.ofList w.toChars).toList := by
    rw [String.toList_ofList]
    exact h.spells
  have hsides := h.sides.value_ne_zero
  obtain ⟨f, hf⟩ := Option.ne_none_iff_exists'.1 (mt hspells.toFormula?_eq_none_iff.1 hsides)
  have hdenotes := hspells.denotes hf
  refine ⟨f, parse_eq_ok_iff.2 ⟨w, hspells, hsides, hdenotes⟩, ?_⟩
  rw [canonical, hspells.canonicalChars_eq hsides hdenotes, h.normalized_eq]

theorem Limited.canonical_matches (hf : f.Limited) :
    Pattern.canonical.Matches f.canonical.toList := by
  rw [canonical, String.toList_ofList, ← toChars_canonicalParts]
  exact Pattern.canonical_matches_iff.2 ⟨_, hf.proper_canonicalParts, rfl⟩

/-- Writing a formula anew normalizes the text that it was read from, part by part. The texts that
stay as they are, and all the texts that are ever written, are those of the canonical pattern. -/
theorem canonical_is_normal_text :
    (∀ text f, parse text = .ok f → ∃ w : Written, w.Spells text.toList ∧
      (∀ v : Written, v.Spells text.toList → v = w) ∧ f.canonical.toList = w.normalized) ∧
    {text | ∃ f, parse text = .ok f ∧ f.canonical = text} =
      {text | Pattern.canonical.Matches text.toList} ∧
    {text | ∃ source f, parse source = .ok f ∧ f.canonical = text} =
      {text | Pattern.canonical.Matches text.toList} := by
  have hwritten (source : String) (f : Formula) (h : parse source = .ok f) :
      Pattern.canonical.Matches f.canonical.toList :=
    (Limited.of_parse h).canonical_matches
  have hstays (text : String) (h : Pattern.canonical.Matches text.toList) :
      ∃ f, parse text = .ok f ∧ f.canonical = text := by
    obtain ⟨w, hw, htext⟩ := Pattern.canonical_matches_iff.1 h
    have hread := exists_parse_of_proper hw
    rwa [htext, String.ofList_toList] at hread
  refine ⟨?_, Set.Subset.antisymm ?_ hstays, Set.Subset.antisymm ?_ ?_⟩
  · intro text f h
    obtain ⟨w, hw, hsides, hf⟩ := parse_eq_ok_iff.1 h
    refine ⟨w, hw, fun v hv ↦ hv.unique hw, ?_⟩
    rw [canonical, String.toList_ofList, hw.canonicalChars_eq hsides hf]
  · rintro text ⟨f, h, hsame⟩
    have hmatches := hwritten text f h
    rwa [hsame] at hmatches
  · rintro _ ⟨source, f, h, rfl⟩
    exact hwritten source f h
  · intro text hmatches
    obtain ⟨f, h, hsame⟩ := hstays text hmatches
    exact ⟨text, f, h, hsame⟩

theorem padded_text_is_normalized :
    parse "007d010-05" = .ok ⟨7, 10, some ⟨.minus, 5⟩⟩ ∧
      (canonical ⟨7, 10, some ⟨.minus, 5⟩⟩).toList =
        Written.normalized ⟨['0', '0', '7'], ['0', '1', '0'], some (.minus, ['0', '5'])⟩ := by
  have hparse : parse "007d010-05" = .ok ⟨7, 10, some ⟨.minus, 5⟩⟩ := by
    simp only [parse, String.reduceToList]
    rfl
  have hspells : Written.Spells ⟨['0', '0', '7'], ['0', '1', '0'], some (.minus, ['0', '5'])⟩
      "007d010-05".toList :=
    Written.spells_iff.2 ⟨by decide, by simp [Written.toChars, Sign.symbol]⟩
  obtain ⟨w, -, hunique, htext⟩ := canonical_is_normal_text.1 _ _ hparse
  rw [hunique _ hspells]
  exact ⟨hparse, htext⟩

end Formula

end Tabletop
