import Mathlib
import Tabletop.Handle
import Tabletop.Interchange.Reading
import Tabletop.Proofs.Outcomes

/-!
# Checked arithmetic

Reading and rolling in natural numbers, with a check wherever a number has a width to keep, a
difference could fall below zero or a die has to have a face. A check that fails gives none. No check
fails on what was read from text, and so the machine's numbers are the natural ones.
-/

namespace Tabletop

/-- The number, if it is no greater than the limit. -/
def within (limit n : Nat) : Option Nat :=
  if n ≤ limit then some n else none

theorem within_eq_some {limit n : Nat} (h : n ≤ limit) : within limit n = some n :=
  if_pos h

/-! ## Reading -/

namespace Text.Decimal

/-- One more digit: a character of one byte, not below the zero, for which the number has room in 16
bits. -/
def stepChecked (value : Nat) (c : Char) : Option Nat := do
  let byte ← within 0x7f c.toNat
  let digit ← byte.psub '0'.toNat
  let shifted ← within 0xffff (value * 10)
  within 0xffff (shifted + digit)

def readChecked (digits : List Char) : Option Nat :=
  digits.foldlM stepChecked 0

theorem stepChecked_eq {c : Char} (hc : c.isDigit = true) {value : Nat}
    (h : 10 * value + (c.toNat - '0'.toNat) < 0x10000) :
    stepChecked value c = some (10 * value + (c.toNat - '0'.toNat)) := by
  obtain ⟨hlow, hhigh⟩ := toNat_of_isDigit hc
  have hbyte : within 0x7f c.toNat = some c.toNat := within_eq_some (by omega)
  have hdigit : c.toNat.psub '0'.toNat = some (c.toNat - '0'.toNat) :=
    Nat.psub_eq_some.2 (Nat.sub_add_cancel hlow)
  have hshifted : within 0xffff (value * 10) = some (value * 10) := within_eq_some (by omega)
  simp only [stepChecked, hbyte, hdigit, hshifted, Option.bind_eq_bind, Option.bind_some]
  rw [Nat.mul_comm value, within_eq_some (by omega)]

theorem foldlM_stepChecked {digits : List Char} (hdigits : ∀ c ∈ digits, c.isDigit = true)
    {value : Nat} (hvalue : Nat.ofDigitChars 10 digits value < 0x10000) :
    digits.foldlM stepChecked value = some (Nat.ofDigitChars 10 digits value) := by
  induction digits generalizing value with
  | nil => simp
  | cons c digits ih =>
      obtain ⟨hc, hdigits⟩ := List.forall_mem_cons.1 hdigits
      rw [Nat.ofDigitChars_cons] at hvalue ⊢
      have hle := le_ofDigitChars digits (10 * value + (c.toNat - '0'.toNat))
      rw [List.foldlM_cons, stepChecked_eq hc (by omega), Option.bind_eq_bind, Option.bind_some,
        ih hdigits hvalue]

theorem readChecked_eq {digits : List Char} {most : Nat} (h : IsNumeral most digits)
    (hmost : most ≤ 4) : readChecked digits = some (read digits).toNat := by
  have hlt := ofDigitChars_lt ⟨h.1.trans hmost, h.2⟩
  rw [toNat_read h hmost]
  exact foldlM_stepChecked h.2 (by omega)

end Text.Decimal

open Text.Decimal

/-- The sign with its amount, which has to fit 8 bits. -/
def Adjustment.readChecked (suffix : Sign × List Char) : Option Adjustment := do
  let amount ← Text.Decimal.readChecked suffix.2
  let amount ← within 0xff amount
  return ⟨suffix.1, UInt8.ofNat amount⟩

/-- None where a check fails, and `some none` where the die is without sides. -/
def Written.toFormulaChecked (w : Written) : Option (Option Formula) := do
  let count ← readChecked w.count
  let sides ← readChecked w.sides
  if sides = 0 then return none
  let adjustment ← w.suffix.mapM Adjustment.readChecked
  return some {
    count := UInt16.ofNat (if count = 0 then 1 else count)
    sides := UInt16.ofNat sides
    adjustment }

def Formula.parseChecked (text : String) : Option (Except Rejection Formula) := do
  match Written.ofChars? text.toList with
  | none => return .error (.mismatch text)
  | some w =>
      match ← w.toFormulaChecked with
      | none => return .error .zeroSides
      | some f => return .ok f

theorem Adjustment.readChecked_eq {suffix : Sign × List Char} (h : IsNumeral 2 suffix.2) :
    Adjustment.readChecked suffix = some ⟨suffix.1, (read suffix.2).toUInt8⟩ := by
  have hlt : (read suffix.2).toNat < 10 ^ 2 := by
    rw [toNat_read h (by decide)]
    exact value_lt_pow (digits_zero_iff.2 h)
  rw [Adjustment.readChecked, Text.Decimal.readChecked_eq h (by decide), Option.bind_eq_bind,
    Option.bind_some, within_eq_some (by omega)]
  rfl

theorem Written.toFormulaChecked_eq {w : Written} (h : w.Valid) :
    w.toFormulaChecked = some w.toFormula? := by
  obtain ⟨count, sides, suffix⟩ := w
  obtain ⟨hcount, hsides, -, hamount⟩ := h
  have hcount : readChecked count = some (read count).toNat := readChecked_eq hcount (by decide)
  have hsides : readChecked sides = some (read sides).toNat := readChecked_eq hsides (by decide)
  have hsuffix : suffix.mapM Adjustment.readChecked =
      some (suffix.map fun s ↦ ⟨s.1, (read s.2).toUInt8⟩) := by
    cases suffix with
    | none => rfl
    | some suffix =>
        rw [Option.mapM_some, Adjustment.readChecked_eq hamount]
        rfl
  have hzero (n : UInt16) : n.toNat = 0 ↔ n = 0 := UInt16.toNat_inj (b := 0)
  simp only [toFormulaChecked, toFormula?, hcount, hsides, hsuffix, Option.bind_eq_bind,
    Option.bind_some, hzero]
  split_ifs
  · rfl
  · rw [UInt16.ofNat_toNat]
    rfl
  · rw [UInt16.ofNat_toNat, UInt16.ofNat_toNat]
    rfl

theorem Formula.parseChecked_eq (text : String) : parseChecked text = some (parse text) := by
  unfold parseChecked parse
  cases hw : Written.ofChars? text.toList with
  | none => rfl
  | some w =>
      have hvalid := (Written.ofChars?_eq_some_iff.1 hw).1
      dsimp only
      rw [Written.toFormulaChecked_eq hvalid]
      cases w.toFormula? <;> rfl

/-! ## Rolling -/

/-- The most that a formula comes to: 999 dice with 999 sides, and 99 more. -/
def scoreLimit : Nat := 998100

def Adjustment.applyChecked (a : Adjustment) (sum : Nat) : Option Nat :=
  match a.sign with
  | .plus => within scoreLimit (sum + a.amount.toNat)
  | .minus => if sum ≤ a.amount.toNat then some 0 else sum.psub a.amount.toNat

/-- Draws `n` dice and adds them to a sum, one by one. A die without sides has no face to draw. -/
def Die.sumChecked (sides : UInt16) : Nat → Nat → Draw (Option Nat)
  | 0, sum => return some sum
  | n + 1, sum => do
      if sides = 0 then return none
      let face ← Die.draw sides
      match within scoreLimit (sum + face.toNat) with
      | none => return none
      | some sum => sumChecked sides n sum

namespace Formula

def adjustChecked (f : Formula) (sum : Nat) : Option Nat :=
  match f.adjustment with
  | some a => a.applyChecked sum
  | none => some sum

def resultOfAllChecked (f : Formula) (face : Nat) : Option Nat := do
  let sum ← within scoreLimit (f.count.toNat * face)
  f.adjustChecked sum

end Formula

/-- Comes to none where a check fails. Where the words run out before that, it fails as an attempt. -/
def Play.rollChecked (f : Formula) : Play (Option Score) := do
  match ← Play.draw (Die.sumChecked f.sides f.count.toNat 0) with
  | none => return none
  | some sum =>
      match f.adjustChecked sum with
      | none => return none
      | some result =>
          record (.rolled f.canonical (UInt32.ofNat sum) (UInt32.ofNat result))
          return some (UInt32.ofNat result)

/-! ### Attempts with their outcomes mapped -/

namespace Attempt

variable {σ α β : Type}

theorem ext_result {x y : Attempt σ α} (h : ∀ s, x.result s = y.result s) : x = y :=
  OptionT.ext (funext h)

theorem result_map (g : α → β) (x : Attempt σ α) (s : σ) :
    (g <$> x).result s = ((x.result s).1.map g, (x.result s).2) := by
  rw [map_eq_pure_bind, result_bind]
  rcases x.result s with ⟨_ | a, t⟩ <;> rfl

theorem upTo_map (g : α → β) (x : Attempt σ α) (n : Nat) :
    (g <$> x).upTo n = List.map g <$> x.upTo n := by
  induction n with
  | zero => rfl
  | succ n ih =>
      apply StateT.ext
      intro s
      rw [run_upTo_succ, StateT.run_map, run_upTo_succ, result_map, ih]
      rcases x.result s with ⟨_ | a, t⟩ <;> rfl

end Attempt

/-! ### Dice added one by one -/

theorem Die.toNat_mem_Icc_of_next? {sides : UInt16} (hsides : 0 < sides.toNat) {s t : Supply}
    {face : Score} (h : next? sides s = (some face, t)) : face.toNat ∈ Set.Icc 1 sides.toNat := by
  obtain ⟨u, hnext, -⟩ := @next?_eq sides s
  rw [hnext, Prod.mk.injEq] at h
  obtain ⟨w, -, hw⟩ := List.mem_filterMap.1 (List.mem_of_head? h.1)
  rw [(face?_eq_some_iff.1 hw).2]
  exact faceOf_mem_Icc hsides w

/-- No sum of some of the dice leaves the limit when the sum of all cannot. -/
theorem Die.result_sumChecked {sides : UInt16} (hsides : 0 < sides.toNat) {n sum : Nat}
    (h : sum + n * sides.toNat ≤ scoreLimit) (s : Supply) :
    (sumChecked sides n sum).result s =
      ((((draw sides).times n).result s).1.map fun faces ↦
          some (sum + (faces.map UInt32.toNat).sum),
        (((draw sides).times n).result s).2) := by
  induction n generalizing sum s with
  | zero => rfl
  | succ n ih =>
      have hne : sides ≠ 0 := by
        rintro rfl
        exact absurd hsides (by decide)
      rw [Nat.succ_mul] at h
      rw [sumChecked, if_neg hne, Attempt.result_bind, Attempt.result_times_succ, draw,
        Attempt.result_ofResult]
      rcases hnext : next? sides s with ⟨_ | face, t⟩
      · rfl
      · have hface := (toNat_mem_Icc_of_next? hsides hnext).2
        have hle : sum + face.toNat ≤ scoreLimit := by omega
        simp only [within_eq_some hle, ih (show sum + face.toNat + n * sides.toNat ≤ _ by omega)]
        rw [draw]
        rcases (Attempt.times _ n).result t with ⟨_ | faces, u⟩
        · rfl
        · simp only [Option.map_some, List.map_cons, List.sum_cons, Nat.add_assoc]

/-! ## No check fails -/

theorem Adjustment.applyChecked_eq (a : Adjustment) {sum : Nat}
    (h : sum + a.amount.toNat ≤ scoreLimit) : a.applyChecked sum = some (a.exact sum) := by
  unfold applyChecked exact
  cases a.sign with
  | plus => exact within_eq_some h
  | minus =>
      dsimp only
      split_ifs with hle
      · rw [Nat.sub_eq_zero_of_le hle]
      · exact Nat.psub_eq_some.2 (Nat.sub_add_cancel (by omega))

/-- Taking away is a difference of integers that stops at zero. -/
theorem Adjustment.toNat_apply_minus {a : Adjustment} (ha : a.sign = .minus) (sum : Score) :
    ((a.apply sum).toNat : ℤ) = max 0 (sum.toNat - a.amount.toNat) := by
  have hamount : a.amount.toUInt32.toNat = a.amount.toNat := UInt8.toNat_toUInt32 _
  simp only [apply, ha]
  split_ifs with hle
  · rw [UInt32.le_iff_toNat_le, hamount] at hle
    rw [UInt32.toNat_zero]
    omega
  · rw [UInt32.toNat_sub_of_le _ _ (UInt32.le_of_lt (UInt32.not_le.1 hle)), hamount]
    rw [UInt32.le_iff_toNat_le, hamount] at hle
    omega

namespace Formula

variable {f : Formula}

theorem Limited.adjustChecked_eq (hf : f.Limited) {sum : Nat} (hsum : sum ≤ 998001) :
    f.adjustChecked sum = some (f.exact sum) := by
  unfold adjustChecked exact
  cases hadjustment : f.adjustment with
  | none => rfl
  | some a =>
      have hamount := hf.amount_le a hadjustment
      apply a.applyChecked_eq
      rw [scoreLimit]
      omega

theorem Limited.resultOfAllChecked_eq (hf : f.Limited) {face : Score}
    (hface : face.toNat ≤ f.sides.toNat) :
    f.resultOfAllChecked face.toNat = some (f.resultOfAll face).toNat := by
  have hle : f.count.toNat * face.toNat ≤ 998001 :=
    (Nat.mul_le_mul_left _ hface).trans hf.count_mul_sides_le
  rw [resultOfAllChecked, within_eq_some (hle.trans (by decide)), Option.bind_eq_bind,
    Option.bind_some, hf.adjustChecked_eq hle, hf.toNat_resultOfAll hface]

theorem Limited.rollChecked_eq (hf : f.Limited) :
    Play.rollChecked f = some <$> Play.roll f := by
  apply Attempt.ext_result
  intro table
  have hlimit : 0 + f.count.toNat * f.sides.toNat ≤ scoreLimit := by
    have hdice := hf.count_mul_sides_le
    rw [scoreLimit]
    omega
  have hsum := Die.result_sumChecked hf.sides_pos hlimit table.supply
  rw [Attempt.result_map, Play.result_roll, Play.rollChecked, Attempt.result_bind, Play.draw,
    Attempt.result_ofResult, hsum, Formula.draw, Attempt.result_bind]
  rcases hfaces : ((Die.draw f.sides).times f.count.toNat).result table.supply with ⟨_ | faces, t⟩
  · rfl
  · have hshows : f.Shows (faces.map UInt32.toNat) := by
      apply hf.shows_of_facesFrom (s := table.supply)
      rw [facesFrom, hfaces, Option.map_some]
    have hle := hshows.sum_mem_Icc.2.trans hf.count_mul_sides_le
    have hresult : f.adjustChecked (f.settle faces).sum.toNat =
        some (f.settle faces).result.toNat := by
      rw [hf.toNat_settle hshows, hf.toNat_sum_settle hshows, hf.adjustChecked_eq hle]
    simp only [Option.map_some, Nat.zero_add, ← hf.toNat_sum_settle hshows, hresult,
      UInt32.ofNat_toNat]
    rfl

/-- The ways to a formula: a text read at a table by any entry point, a datum read at a table or on
its own, and the text that a handle is made of. -/
inductive Obtained : Formula → Prop
  | parsed {f : Formula} {entry : EntryPoint} {text : String} {table : Table}
      (h : ((entry.read text).run table).1 = .ok f) : Obtained f
  | read {f : Formula} {d : Datum} {table : Table}
      (h : ((Play.read d).run table).1 = .ok f) : Obtained f
  | datum {f : Formula} {d : Datum} (h : ofDatum d = .ok f) : Obtained f
  | handle {handle : Handle} {text : String} {table : Table}
      (h : ((Handle.ofText text).run table).1 = .ok handle) : Obtained handle.formula

theorem exists_text_of_ofDatum {d : Datum} (h : ofDatum d = .ok f) :
    ∃ text, parse text = .ok f := by
  cases d with
  | text s =>
      refine ⟨s, ?_⟩
      rw [ofDatum] at h
      cases hs : parse s <;> rw [hs] at h <;> cases h
      rfl
  | _ => cases h

theorem Obtained.exists_text (h : f.Obtained) : ∃ text, parse text = .ok f := by
  cases h with
  | @parsed _ entry text table h =>
      rw [entry.read_eq_parse, Play.run_parse] at h
      exact ⟨text, h⟩
  | @read _ d table h =>
      have hread : ((Play.read d).run table).1 = Formula.ofDatum d := by
        cases d with
        | text s =>
            change ((Play.parse s).run table).1.mapError _ = _
            rw [Play.run_parse, Formula.ofDatum]
        | _ => rfl
      exact exists_text_of_ofDatum (hread.symm.trans h)
  | datum h => exact exists_text_of_ofDatum h
  | @handle handle text table h =>
      have hparse : ((Handle.ofText text).run table).1 = (parse text).map Handle.mk := by
        rw [Handle.ofText, StateT.run_bind, Play.run_parse]
        cases parse text <;> rfl
      rw [hparse] at h
      cases htext : parse text <;> rw [htext] at h <;> cases h
      exact ⟨text, htext⟩

/-- No check of the reading of any text fails. Formulas, however they are obtained, are within the
limits of reading, and no check fails where they are rolled, once or many times, from whatever
supply, or their bounds computed. What is taken away from a sum leaves no less than zero. -/
theorem no_check_fails :
    (∀ text, parseChecked text = some (parse text)) ∧
      ∀ f : Formula, f.Obtained → f.Limited ∧
        Play.rollChecked f = some <$> Play.roll f ∧
        (∀ n, (Play.rollChecked f).upTo n = List.map some <$> (Play.roll f).upTo n) ∧
        f.resultOfAllChecked 1 = some f.minRoll.toNat ∧
        f.resultOfAllChecked f.sides.toNat = some f.maxRoll.toNat ∧
        ∀ a ∈ f.adjustment, a.sign = .minus → ∀ sum : Score,
          ((a.apply sum).toNat : ℤ) = max 0 (sum.toNat - a.amount.toNat) := by
  refine ⟨parseChecked_eq, fun f hobtained ↦ ?_⟩
  obtain ⟨text, htext⟩ := hobtained.exists_text
  have hf := Limited.of_parse htext
  refine ⟨hf, hf.rollChecked_eq, fun n ↦ ?_, ?_, ?_, fun a _ hminus ↦ a.toNat_apply_minus hminus⟩
  · rw [hf.rollChecked_eq, Attempt.upTo_map]
  · have hface : (1 : Score).toNat ≤ f.sides.toNat := hf.sides_pos
    exact hf.resultOfAllChecked_eq hface
  · have hface : f.sides.toUInt32.toNat = f.sides.toNat := UInt16.toNat_toUInt32 _
    have hmax := hf.resultOfAllChecked_eq hface.le
    rwa [hface] at hmax

/-- The limit of the checks is reached. -/
theorem greatest_formula_checked :
    Obtained ⟨999, 999, some ⟨.plus, 99⟩⟩ ∧
      Play.rollChecked ⟨999, 999, some ⟨.plus, 99⟩⟩ =
        some <$> Play.roll ⟨999, 999, some ⟨.plus, 99⟩⟩ ∧
      resultOfAllChecked ⟨999, 999, some ⟨.plus, 99⟩⟩ 999 =
        some (maxRoll ⟨999, 999, some ⟨.plus, 99⟩⟩).toNat ∧
      (maxRoll ⟨999, 999, some ⟨.plus, 99⟩⟩).toNat = scoreLimit := by
  have hread : parse "999d999+99" = .ok ⟨999, 999, some ⟨.plus, 99⟩⟩ := by
    simp only [parse, String.reduceToList]
    rfl
  have hobtained : Obtained ⟨999, 999, some ⟨.plus, 99⟩⟩ := by
    apply Obtained.datum (d := .text "999d999+99")
    rw [ofDatum, hread]
    rfl
  obtain ⟨-, hroll, -, -, hmax, -⟩ := no_check_fails.2 _ hobtained
  exact ⟨hobtained, hroll, hmax, rfl⟩

end Formula

end Tabletop
