import Mathlib
import Tabletop.Handle
import Tabletop.Proofs.Fairness
import Tabletop.Proofs.Runs

/-!
# Handles and rolls in a row

A handle keeps nothing but its formula. What its rolls come to is what rolls of the formula come to
one after another from the words at the front of the numbers, and between them it tells of the
formula without taking any.
-/

namespace Tabletop

open Play

/-! ## Supplies with the same words -/

/-- The same words are still to come, and equally many have been delivered. -/
structure Supply.Alike (s t : Supply) : Prop where
  pending : s.pending = t.pending
  delivered : s.delivered = t.delivered

structure Table.Alike (s t : Table) : Prop where
  supply : s.supply.Alike t.supply
  journal : s.journal = t.journal

theorem Supply.ofFractions_alike_ofWords (ks : List BinaryFraction) :
    (ofFractions ks).Alike (ofWords (ks.map fun k ↦ UInt32.ofNat (k.numerator / 2 ^ 21))) := by
  refine ⟨?_, rfl⟩
  change ks.map BinaryFraction.word = ks.map fun k ↦ UInt32.ofNat (k.numerator / 2 ^ 21)
  apply List.map_congr_left
  intro k _
  rw [← k.toNat_word, UInt32.ofNat_toNat]

theorem Supply.Alike.of_advances {s s' t t' : Supply} (h : s.Alike t) (hs : s.Advances s')
    (ht : t.Advances t') (hpending : s'.pending = t'.pending) : s'.Alike t' := by
  refine ⟨hpending, ?_⟩
  have hsDelivered := hs.delivered
  have htDelivered := ht.delivered
  rw [h.pending, h.delivered, hpending] at hsDelivered
  omega

theorem Supply.Alike.draw {s t : Supply} (h : s.Alike t) (f : Formula) :
    (f.draw.result s).1 = (f.draw.result t).1 ∧
      (f.draw.result s).2.Alike (f.draw.result t).2 := by
  obtain ⟨s', hs, hsAdvances, hsPending⟩ := f.result_draw s
  obtain ⟨t', ht, htAdvances, htPending⟩ := f.result_draw t
  rw [hs, ht, h.pending]
  refine ⟨rfl, h.of_advances hsAdvances htAdvances ?_⟩
  rw [hsPending, htPending, h.pending]

theorem Table.Alike.roll {s t : Table} (h : s.Alike t) (f : Formula) :
    ((roll f).result s).1 = ((roll f).result t).1 ∧
      ((roll f).result s).2.Alike ((roll f).result t).2 := by
  obtain ⟨houtcome, hsupply⟩ := h.supply.draw f
  rw [result_roll, result_roll]
  rcases hs : f.draw.result s.supply with ⟨r?, s'⟩
  rcases ht : f.draw.result t.supply with ⟨q?, t'⟩
  rw [hs, ht] at houtcome hsupply
  obtain rfl : r? = q? := houtcome
  cases r? with
  | none => exact ⟨rfl, hsupply, h.journal⟩
  | some r => exact ⟨rfl, hsupply, by simp [h.journal]⟩

/-! ## Accounts of rolls -/

/-- The same account of another outcome. -/
def Account.map {α β : Type} (g : α → β) (a : Account α) : Account β :=
  { outcome := g a.outcome, delivered := a.delivered, entries := a.entries }

/-- A roll, with the number of words delivered by then and the entry that it made. -/
def Play.rollAccount (f : Formula) : StateM Table (Account (Option Score)) :=
  account (roll f).run

theorem Play.run_rollAccount (f : Formula) (table : Table) :
    (rollAccount f).run table =
      (.between table ((roll f).result table).2 ((roll f).result table).1,
        ((roll f).result table).2) :=
  rfl

theorem Table.Alike.rollAccount {s t : Table} (h : s.Alike t) (f : Formula) :
    ((rollAccount f).run s).1 = ((rollAccount f).run t).1 ∧
      ((rollAccount f).run s).2.Alike ((rollAccount f).run t).2 := by
  obtain ⟨houtcome, hafter⟩ := h.roll f
  refine ⟨?_, hafter⟩
  simp only [run_rollAccount, Account.between, houtcome, hafter.supply.delivered, hafter.journal,
    h.journal]

/-- A roll from a dry supply leaves all as it is. -/
theorem Play.result_roll_of_dry {f : Formula} (hcount : 0 < f.count.toNat) {table : Table}
    (h : table.supply.pending = []) : (roll f).result table = (none, table) := by
  obtain ⟨m, hm⟩ := Nat.exists_eq_succ_of_ne_zero hcount.ne'
  have hdraw : f.draw.result table.supply = (none, table.supply) := by
    rw [Formula.draw, Attempt.result_bind, hm, Attempt.result_times_succ, Die.draw,
      Attempt.result_ofResult, Die.next?_of_dry (Supply.next?_eq_none_iff.2 h)]
  rw [result_roll, hdraw]

theorem Play.pending_of_result_roll {f : Formula} {table after : Table}
    (h : (roll f).result table = (none, after)) : after.supply.pending = [] := by
  obtain ⟨t, hroll, -, hpending⟩ := result_roll_eq f table
  rw [h] at hroll
  split_ifs at hroll with hle
  · cases (Prod.mk.inj hroll).1
  · rw [(Prod.mk.inj hroll).2, hpending]
    exact Die.after_eq_nil (Nat.lt_of_not_le hle)

theorem Play.rollAccounts_of_dry {f : Formula} (hcount : 0 < f.count.toNat) {table : Table}
    (h : table.supply.pending = []) (n : Nat) :
    Runs.after rollAccount (List.replicate n f) table = table := by
  induction n with
  | zero => rfl
  | succ n ih =>
      rw [List.replicate_succ, Runs.after_cons, run_rollAccount, result_roll_of_dry hcount h]
      exact ih

/-- Rolls that are asked for together are the same rolls one by one, unless one of these comes to
nothing. -/
theorem Play.result_times_roll {f : Formula} (hcount : 0 < f.count.toNat) (n : Nat)
    (table : Table) :
    let accounts := Runs.outcomes rollAccount (List.replicate n f) table
    ((roll f).times n).result table =
      (if ∃ a ∈ accounts, a.outcome = none then none else some (accounts.filterMap Account.outcome),
        Runs.after rollAccount (List.replicate n f) table) := by
  induction n generalizing table with
  | zero => simp
  | succ n ih =>
      simp only [List.replicate_succ, Runs.outcomes_cons, Runs.after_cons, run_rollAccount]
      rw [Attempt.result_times_succ]
      rcases hroll : (roll f).result table with ⟨_ | result, t⟩
      · have hdry := pending_of_result_roll hroll
        simp [Account.between, rollAccounts_of_dry hcount hdry]
      · simp only [ih t, Account.between, List.exists_mem_cons_iff, reduceCtorEq, false_or,
          List.filterMap_cons]
        split_ifs <;> rfl

theorem Account.map_outcome_eq {α : Type} {accounts : List (Account (Option α))}
    (h : ¬∃ a ∈ accounts, a.outcome = none) :
    accounts.map Account.outcome = (accounts.filterMap Account.outcome).map some := by
  induction accounts with
  | nil => rfl
  | cons a accounts ih =>
      simp only [List.exists_mem_cons_iff, not_or] at h
      obtain ⟨outcome, houtcome⟩ := Option.ne_none_iff_exists'.1 h.1
      simp [houtcome, ih h.2]

/-! ## Calls of a handle -/

namespace Handle

/-- Is a roll asked for? -/
def Call.isRoll : Call → Bool
  | .roll => true
  | _ => false

/-- What a call tells of a formula that it does not roll. -/
def Call.told? (f : Formula) : Call → Option Reply
  | .roll => none
  | .canonical => some (.text f.canonical)
  | .minRoll => some (.score f.minRoll)
  | .maxRoll => some (.score f.maxRoll)

/-- How often `calls` ask for a roll. -/
def rollCount (calls : List Call) : Nat :=
  calls.countP Call.isRoll

variable {handle : Handle}

theorem run_callAccount_roll (table : Table) :
    (handle.callAccount .roll).run table =
      (((rollAccount handle.formula).run table).1.map (Option.map .score),
        ((rollAccount handle.formula).run table).2) := by
  have hcall : (handle.call .roll).result table =
      (((roll handle.formula).result table).1.map .score,
        ((roll handle.formula).result table).2) := by
    rw [call, Attempt.result_bind]
    rcases (roll handle.formula).result table with ⟨_ | result, after⟩ <;> rfl
  change (Account.between table ((handle.call .roll).result table).2
    ((handle.call .roll).result table).1, ((handle.call .roll).result table).2) = _
  rw [hcall]
  rfl

theorem run_callAccount_of_told? {c : Call} {reply : Reply}
    (h : c.told? handle.formula = some reply) (table : Table) :
    (handle.callAccount c).run table =
      ({ outcome := some reply, delivered := table.supply.delivered, entries := [] }, table) := by
  have hcall : (handle.call c).result table = (some reply, table) := by
    cases c with
    | roll => cases h
    | canonical | minRoll | maxRoll =>
        obtain rfl := Option.some.inj h
        rfl
  have hentries : table.journal.toList.drop table.journal.size = [] :=
    List.drop_eq_nil_of_le (by simp)
  change (Account.between table ((handle.call c).result table).2
    ((handle.call c).result table).1, ((handle.call c).result table).2) = _
  rw [hcall, Account.between, hentries]

theorem isRoll_eq_false_of_told? {f : Formula} {c : Call} {reply : Reply}
    (h : c.told? f = some reply) : c.isRoll = false := by
  cases c with
  | roll => cases h
  | canonical | minRoll | maxRoll => rfl

theorem eq_roll_or_told? (f : Formula) (c : Call) : c = .roll ∨ ∃ reply, c.told? f = some reply := by
  cases c with
  | roll => exact .inl rfl
  | canonical | minRoll | maxRoll => exact .inr ⟨_, rfl⟩

/-- Calls leave what as many rolls leave as there are among them. -/
theorem alike_after {s t : Table} (hst : s.Alike t) (calls : List Call) :
    (Runs.after handle.callAccount calls s).Alike
      (Runs.after rollAccount (List.replicate (rollCount calls) handle.formula) t) := by
  induction calls generalizing s t with
  | nil => exact hst
  | cons c calls ih =>
      rw [Runs.after_cons]
      rcases eq_roll_or_told? handle.formula c with rfl | ⟨reply, hreply⟩
      · have hcount : rollCount (.roll :: calls) = rollCount calls + 1 :=
          List.countP_cons_of_pos rfl
        rw [hcount, List.replicate_succ, Runs.after_cons, run_callAccount_roll]
        exact ih (hst.rollAccount handle.formula).2
      · have hcount : rollCount (c :: calls) = rollCount calls :=
          List.countP_cons_of_neg (by simp [isRoll_eq_false_of_told? hreply])
        rw [hcount, run_callAccount_of_told? hreply]
        exact ih hst

theorem rollCount_take_lt {calls : List Call} {i : Nat} (h : calls[i]? = some .roll) :
    rollCount (calls.take i) < rollCount calls := by
  have hsplit : rollCount calls = rollCount (calls.take i) + rollCount (calls.drop i) := by
    rw [rollCount, ← List.take_append_drop i calls, List.countP_append, List.take_append_drop]
    rfl
  have hpos : 0 < rollCount (calls.drop i) := by
    apply List.countP_pos_iff.2
    refine ⟨.roll, ?_, rfl⟩
    apply List.mem_of_getElem? (i := 0)
    rwa [List.getElem?_drop, Nat.add_zero]
  omega

/-- The account of a roll is that of its place among the rolls. -/
theorem getElem?_outcomes_roll {s t : Table} (hst : s.Alike t) {calls : List Call} {i : Nat}
    (h : calls[i]? = some .roll) :
    (Runs.outcomes handle.callAccount calls s)[i]? =
      (Runs.outcomes rollAccount (List.replicate (rollCount calls) handle.formula)
        t)[rollCount (calls.take i)]?.map (Account.map (Option.map .score)) := by
  have hlt := rollCount_take_lt h
  have hbefore : (Runs.after handle.callAccount (calls.take i) s).Alike _ := alike_after hst _
  rw [Runs.getElem?_outcomes, h, Option.map_some, run_callAccount_roll, Runs.getElem?_outcomes,
    List.getElem?_replicate_of_lt hlt, List.take_replicate, Nat.min_eq_left hlt.le,
    (hbefore.rollAccount handle.formula).1]
  rfl

theorem getElem?_outcomes_told {s t : Table} (hst : s.Alike t) {calls : List Call} {i : Nat}
    {c : Call} {reply : Reply} (h : calls[i]? = some c)
    (hreply : c.told? handle.formula = some reply) :
    (Runs.outcomes handle.callAccount calls s)[i]? = some {
      outcome := some reply
      delivered := (Runs.after rollAccount (List.replicate (rollCount (calls.take i))
        handle.formula) t).supply.delivered
      entries := [] } := by
  have hbefore : (Runs.after handle.callAccount (calls.take i) s).Alike _ := alike_after hst _
  rw [Runs.getElem?_outcomes, h, Option.map_some, run_callAccount_of_told? hreply,
    hbefore.supply.delivered]

theorem run_callAll_rolls (n : Nat) (table : Table) :
    (handle.callAll (List.replicate n .roll)).run table =
      ((Runs.outcomes rollAccount (List.replicate n handle.formula) table).map
          (Account.map (Option.map .score)),
        Runs.after rollAccount (List.replicate n handle.formula) table) := by
  change (Runs.outcomes handle.callAccount _ table, Runs.after handle.callAccount _ table) = _
  induction n generalizing table with
  | zero => rfl
  | succ n ih =>
      obtain ⟨houtcomes, hafter⟩ := Prod.mk.inj (ih ((rollAccount handle.formula).run table).2)
      simp only [List.replicate_succ, Runs.outcomes_cons, Runs.after_cons, run_callAccount_roll,
        List.map_cons, houtcomes, hafter]

/-- A handle on the text of a formula takes numbers for its rolls alone. These come to what rolls of
the formula come to, one after another, from the words at the front of the numbers, and each other
call tells of the formula in between. Any number of rolls that are asked for together are as many
rolls one by one, and come to nothing if one of these does. -/
theorem handle_rolls_its_formula {text : String} {f : Formula} (h : Formula.parse text = .ok f)
    (ks : List BinaryFraction) (calls : List Call) (n : Nat) :
    let numbers : Table := { supply := .ofFractions ks }
    let words : Table := { supply := .ofWords (ks.map fun k ↦ UInt32.ofNat (k.numerator / 2 ^ 21)) }
    let rolls := Runs.outcomes rollAccount (List.replicate (rollCount calls) f) words
    ∃ handle, (ofText text).run numbers = (.ok handle, numbers) ∧
      let accounts := ((handle.callAll calls).run numbers).1
      let separate := (handle.callAll (List.replicate n .roll)).run numbers
      let together := ((roll f).times n).result numbers
      accounts.length = calls.length ∧
      (∀ i : Nat, calls[i]? = some .roll → accounts[i]? =
        rolls[rollCount (calls.take i)]?.map (Account.map (Option.map .score))) ∧
      (∀ (i : Nat) (c : Call) (reply : Reply), calls[i]? = some c → c.told? f = some reply →
        let rolled := Runs.after rollAccount (List.replicate (rollCount (calls.take i)) f) words
        accounts[i]? = some
          { outcome := some reply, delivered := rolled.supply.delivered, entries := [] }) ∧
      (together.1 = none ↔ ∃ a ∈ separate.1, a.outcome = none) ∧
      (∀ results, together.1 = some results →
        separate.1.map Account.outcome = results.map fun result ↦ some (.score result)) ∧
      together.2 = separate.2 := by
  intro numbers words rolls
  have hcount := (Formula.Limited.of_parse h).count_pos
  have halike : numbers.Alike words := ⟨Supply.ofFractions_alike_ofWords ks, rfl⟩
  refine ⟨⟨f⟩, ?_, ?_⟩
  · rw [ofText, StateT.run_bind, run_parse, h]
    rfl
  · intro accounts separate together
    have hseparate : separate = _ := run_callAll_rolls n numbers
    have htogether : together = _ := result_times_roll hcount n numbers
    refine ⟨Runs.length_outcomes calls numbers, fun i hi ↦ getElem?_outcomes_roll halike hi,
      fun i c reply hi hreply ↦ getElem?_outcomes_told halike hi hreply, ?_, ?_, ?_⟩
    · rw [htogether, hseparate]
      simp [Account.map]
    · intro results hresults
      rw [htogether] at hresults
      split_ifs at hresults with hnone
      obtain rfl := Option.some.inj hresults
      have hall := congrArg (List.map (Option.map Reply.score)) (Account.map_outcome_eq hnone)
      rw [List.map_map, List.map_map] at hall
      rw [hseparate, List.map_map]
      exact hall
    · rw [htogether, hseparate]

/-- The first number is passed over, the next two show a one and a five, and the last is not enough
for another roll. -/
theorem handle_between_two_rolls :
    let f : Formula := ⟨2, 6, some ⟨.minus, 3⟩⟩
    let ks : List BinaryFraction := [⟨2 ^ 53 - 1, by decide⟩, ⟨0, by decide⟩,
      ⟨2 ^ 52 + 2 ^ 51, by decide⟩, ⟨1, by decide⟩]
    Formula.parse "2d6-3" = .ok f ∧
      ∃ handle, (ofText "2d6-3").run { supply := .ofFractions ks } =
          (.ok handle, { supply := .ofFractions ks }) ∧
        let accounts := ((handle.callAll [.canonical, .roll, .minRoll, .roll, .maxRoll]).run
          { supply := .ofFractions ks }).1
        accounts[0]? = some ⟨some (.text f.canonical), 0, []⟩ ∧
        accounts[1]? = some ⟨some (.score 3), 3, [.rolled f.canonical 6 3]⟩ ∧
        accounts[2]? = some ⟨some (.score 0), 3, []⟩ ∧ accounts[3]? = some ⟨none, 4, []⟩ ∧
        accounts[4]? = some ⟨some (.score 9), 4, []⟩ ∧
        (((roll f).times 2).result { supply := .ofFractions ks }).2 =
          ((handle.callAll [.roll, .roll]).run { supply := .ofFractions ks }).2 := by
  intro f ks
  have hparse : Formula.parse "2d6-3" = .ok f := by
    simp only [Formula.parse, String.reduceToList]
    rfl
  have hdrawn : f.draw.result (.ofWords [0xffffffff, 0, 0xc0000000, 0]) =
      (some ⟨6, 3⟩, ⟨.words [0], 3⟩) := by
    cbv
  have hdry : f.draw.result ⟨.words [0], 3⟩ = (none, ⟨.words [], 4⟩) := by
    cbv
  have hrolls : Runs.outcomes rollAccount [f, f]
      { supply := .ofWords [0xffffffff, 0, 0xc0000000, 0] } =
        [⟨some 3, 3, [.rolled f.canonical 6 3]⟩, ⟨none, 4, []⟩] := by
    simp only [Runs.outcomes_cons, run_rollAccount, result_roll, hdrawn, hdry]
    rfl
  have hone : (Runs.after rollAccount [f]
      { supply := .ofWords [0xffffffff, 0, 0xc0000000, 0] }).supply.delivered = 3 := by
    simp only [Runs.after_cons, run_rollAccount, result_roll, hdrawn]
    rfl
  have htwo : (Runs.after rollAccount [f, f]
      { supply := .ofWords [0xffffffff, 0, 0xc0000000, 0] }).supply.delivered = 4 := by
    simp only [Runs.after_cons, run_rollAccount, result_roll, hdrawn, hdry]
    rfl
  have hwords : (ks.map fun k ↦ UInt32.ofNat (k.numerator / 2 ^ 21)) =
      [0xffffffff, 0, 0xc0000000, 0] := by
    decide
  obtain ⟨handle, hhandle, -, hroll, htold, -, -, htables⟩ :=
    handle_rolls_its_formula hparse ks [.canonical, .roll, .minRoll, .roll, .maxRoll] 2
  rw [hwords] at hroll htold
  have hmaxRoll : f.maxRoll = 9 := by decide
  have hcanonical := htold 0 .canonical _ rfl rfl
  have hfirst := hroll 1 rfl
  have hmin := htold 2 .minRoll _ rfl rfl
  have hsecond := hroll 3 rfl
  have hmax := htold 4 .maxRoll _ rfl rfl
  change _ = (Runs.outcomes rollAccount [f, f] _)[0]?.map _ at hfirst
  change _ = (Runs.outcomes rollAccount [f, f] _)[1]?.map _ at hsecond
  change _ = some (Account.mk _ (Runs.after rollAccount [f] _).supply.delivered _) at hmin
  change _ = some (Account.mk _ (Runs.after rollAccount [f, f] _).supply.delivered _) at hmax
  rw [hrolls] at hfirst hsecond
  rw [hone] at hmin
  rw [htwo, hmaxRoll] at hmax
  exact ⟨hparse, handle, hhandle, hcanonical, hfirst, hmin, hsecond, hmax, htables⟩

end Handle

end Tabletop
