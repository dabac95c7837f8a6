import Mathlib
import Tabletop.Proofs.Acts
import Tabletop.Proofs.Chunks
import Tabletop.Proofs.Messages
import Tabletop.Report

/-!
# Reports on arguments

A report has a block for each argument, in their order, and stops at none. What stands in a block
comes from its argument and from the words that the rolls for it take, and the line breaks of a
report are those that end its blocks and those in the arguments.
-/

namespace Tabletop

namespace Attempt

variable {σ α β : Type} {act : α → Attempt σ β}

theorem result_bind_eq_some_iff {x : Attempt σ α} {next : α → Attempt σ β} {s u : σ} {b : β} :
    (x >>= next).result s = (some b, u) ↔
      ∃ a t, x.result s = (some a, t) ∧ (next a).result t = (some b, u) := by
  rw [result_bind]
  rcases x.result s with ⟨_ | a, t⟩
  · simp
  · simp

theorem isSome_result_bind {x : Attempt σ α} {next : α → Attempt σ β} {s : σ} :
    ((x >>= next).result s).1.isSome ↔
      ∃ a ∈ (x.result s).1, ((next a).result (x.result s).2).1.isSome := by
  rw [result_bind]
  rcases x.result s with ⟨_ | a, t⟩
  · simp
  · simp

@[simp] theorem result_mapM_nil (s : σ) : (([] : List α).mapM act).result s = (some [], s) :=
  rfl

/-- Attempts in a row succeed if the first one does and so do the others in the state that it
leaves. -/
theorem result_mapM_cons_eq_some_iff {a : α} {as : List α} {s u : σ} {bs : List β} :
    ((a :: as).mapM act).result s = (some bs, u) ↔
      ∃ b t rest, (act a).result s = (some b, t) ∧ (as.mapM act).result t = (some rest, u) ∧
        bs = b :: rest := by
  rw [List.mapM_cons, result_bind_eq_some_iff]
  simp only [result_bind_eq_some_iff, result_pure, Prod.mk.injEq, Option.some.injEq]
  constructor
  · rintro ⟨b, t, hfirst, rest, _, hrest, rfl, rfl⟩
    exact ⟨b, t, rest, hfirst, hrest, rfl⟩
  · rintro ⟨b, t, rest, hfirst, hrest, rfl⟩
    exact ⟨b, t, hfirst, rest, u, hrest, rfl, rfl⟩

theorem isSome_result_mapM_cons {a : α} {as : List α} {s : σ} :
    (((a :: as).mapM act).result s).1.isSome ↔
      ((act a).result s).1.isSome ∧ ((as.mapM act).result ((act a).result s).2).1.isSome := by
  rw [List.mapM_cons]
  simp only [isSome_result_bind, result_pure]
  rcases ((act a).result s).1 with _ | b
  · simp
  · simp [Option.isSome_iff_exists]

end Attempt

/-! ## Texts without line breaks -/

theorem Text.Decimal.break_not_mem_text (n : Nat) : '\n' ∉ (text n).toList := by
  intro h
  cases isDigit_of_mem_text h

theorem Written.Spells.break_not_mem {w : Written} {text : List Char} (h : w.Spells text) :
    '\n' ∉ text := by
  intro hbreak
  have halphabet := h.mem_alphabet hbreak
  revert halphabet
  decide

theorem Formula.break_not_mem_of_parse {text : String} {f : Formula} (h : parse text = .ok f) :
    '\n' ∉ text.toList := by
  obtain ⟨w, hw, -⟩ := parse_eq_ok_iff.1 h
  exact hw.break_not_mem

theorem Formula.Limited.break_not_mem_canonical {f : Formula} (hf : f.Limited) :
    '\n' ∉ f.canonical.toList :=
  hf.spells_canonical.break_not_mem

theorem Rejection.break_not_mem_message (r : Rejection) : '\n' ∉ r.message.toList := by
  intro h
  exact not_isControl_of_mem_message h (by decide)

theorem Text.mem_of_mem_intercalate {separator : List Char} {parts : List (List Char)} {c : Char}
    (h : c ∈ separator.intercalate parts) : c ∈ separator ∨ ∃ part ∈ parts, c ∈ part := by
  induction parts with
  | nil => cases h
  | cons part parts ih =>
      cases parts with
      | nil =>
          rw [List.intercalate_singleton] at h
          exact .inr ⟨part, List.mem_cons_self, h⟩
      | cons next parts =>
          rw [List.intercalate_cons_cons, List.mem_append, List.mem_append] at h
          rcases h with (h | h) | h
          · exact .inr ⟨part, List.mem_cons_self, h⟩
          · exact .inl h
          · obtain h | ⟨later, hlater, h⟩ := ih h
            · exact .inl h
            · exact .inr ⟨later, List.mem_cons_of_mem _ hlater, h⟩

/-- The numbers of a list and what stands between them have no line break. -/
theorem Text.break_not_mem_numbers (results : List Score) :
    '\n' ∉ (", ".intercalate (results.map fun n ↦ Decimal.text n.toNat)).toList := by
  intro h
  rw [String.toList_intercalate, List.map_map] at h
  obtain h | ⟨part, hpart, h⟩ := mem_of_mem_intercalate h
  · revert h
    decide
  · obtain ⟨n, -, rfl⟩ := List.mem_map.1 hpart
    exact Decimal.break_not_mem_text _ h

/-! ## Rolls in a row -/

namespace Play

theorem result_times_roll_eq {f : Formula} (hcount : 0 < f.count.toNat) (n : Nat) (table : Table) :
    ∃ after, ((roll f).times n).result table =
        (if n * f.count.toNat ≤ (Die.faces f.sides table.supply.pending).length then
          some (chunkResults f (Die.faces f.sides table.supply.pending) n) else none, after) ∧
      table.supply.Advances after.supply ∧
      after.supply.pending = Die.after f.sides (n * f.count.toNat) table.supply.pending := by
  obtain ⟨after, hrun, hadvances, hpending⟩ := run_upTo_roll hcount n table
  refine ⟨after, ?_, hadvances, hpending⟩
  rw [Attempt.result_times_eq_run_upTo, hrun]
  simp only [length_chunkResults, min_eq_left_iff, Nat.le_div_iff_mul_le hcount]
  split_ifs with hle
  · rw [Nat.min_eq_left ((Nat.le_div_iff_mul_le hcount).2 hle)]
  · rfl

/-- The first `k` chunks are made of no more faces than they need. -/
theorem chunkResults_take (f : Formula) (faces : List Score) (k : Nat) :
    chunkResults f (faces.take (k * f.count.toNat)) k = chunkResults f faces k := by
  apply List.map_congr_left
  intro i hi
  have hle : (i + 1) * f.count.toNat ≤ k * f.count.toNat :=
    Nat.mul_le_mul_right _ (List.mem_range.1 hi)
  have hmin : min f.count.toNat (k * f.count.toNat - i * f.count.toNat) = f.count.toNat := by
    rw [Nat.succ_mul] at hle
    omega
  rw [List.drop_take, List.take_take, hmin]

theorem mem_Icc_of_mem_chunkResults {f : Formula} (hf : f.Limited) {ws : List Word} {k : Nat}
    (hk : k * f.count.toNat ≤ (Die.faces f.sides ws).length) {result : Score}
    (h : result ∈ chunkResults f (Die.faces f.sides ws) k) :
    result.toNat ∈ Set.Icc f.minRoll.toNat f.maxRoll.toNat := by
  obtain ⟨i, hi, rfl⟩ := List.mem_map.1 h
  have hle : (i + 1) * f.count.toNat ≤ k * f.count.toNat :=
    Nat.mul_le_mul_right _ (List.mem_range.1 hi)
  rw [Nat.succ_mul] at hle
  -- The faces of a chunk are the first ones of the words that the chunks before it leave.
  have hlength : f.count.toNat ≤
      (Die.faces f.sides (Die.after f.sides (i * f.count.toNat) ws)).length := by
    rw [Die.faces_after, List.length_drop]
    omega
  have hshows := hf.shows_take_faces hlength
  rw [← Die.faces_after]
  obtain ⟨hlow, hhigh⟩ := hshows.sum_mem_Icc
  rw [hf.toNat_settle hshows, hf.toNat_minRoll, hf.toNat_maxRoll]
  exact ⟨f.exact_mono hlow, f.exact_mono hhigh⟩

/-- What is known of rolls that were all completed. -/
theorem of_result_times_roll {f : Formula} (hcount : 0 < f.count.toNat) {n : Nat}
    {table after : Table} {results : List Score}
    (h : ((roll f).times n).result table = (some results, after)) :
    n * f.count.toNat ≤ (Die.faces f.sides table.supply.pending).length ∧
      results = chunkResults f (Die.faces f.sides table.supply.pending) n ∧
      table.supply.Advances after.supply ∧
      after.supply.pending = Die.after f.sides (n * f.count.toNat) table.supply.pending := by
  obtain ⟨t, hroll, hadvances, hpending⟩ := result_times_roll_eq hcount n table
  rw [hroll] at h
  split_ifs at h with hle
  · cases h
    exact ⟨hle, rfl, hadvances, hpending⟩
  · cases h

/-- Rolls come to the same again from the words that they took, and take them all. -/
theorem exists_words_of_result_times_roll {f : Formula} (hcount : 0 < f.count.toNat) {n : Nat}
    {table after : Table} {results : List Score}
    (h : ((roll f).times n).result table = (some results, after)) :
    ∃ words own, table.supply.pending = words ++ after.supply.pending ∧
      ((roll f).times n).result { supply := .ofWords words } = (some results, own) ∧
      own.supply.pending = [] := by
  obtain ⟨hle, rfl, hadvances, hpending⟩ := of_result_times_roll hcount h
  obtain ⟨words, hwords⟩ := hadvances.suffix
  obtain ⟨own, hown, -, hdry⟩ := result_times_roll_eq hcount n { supply := .ofWords words }
  refine ⟨words, own, hwords.symm, ?_, ?_⟩
  · rw [hpending] at hwords
    have hfaces := Die.faces_eq_take_of_append hwords hle
    have hlength : n * f.count.toNat ≤ (Die.faces f.sides words).length := by
      rw [hfaces, List.length_take, Nat.min_eq_left hle]
    change _ = (if _ ≤ (Die.faces f.sides words).length then
      some (chunkResults f (Die.faces f.sides words) n) else none, own) at hown
    rw [hown, if_pos hlength, hfaces, chunkResults_take]
  · rw [hpending] at hwords
    exact hdry.trans (Die.after_eq_nil_of_append hwords)

theorem length_and_bounds_of_result_times_roll {f : Formula} (hf : f.Limited) {n : Nat}
    {table after : Table} {results : List Score}
    (h : ((roll f).times n).result table = (some results, after)) :
    results.length = n ∧
      ∀ result ∈ results, result.toNat ∈ Set.Icc f.minRoll.toNat f.maxRoll.toNat := by
  obtain ⟨hle, rfl, -, -⟩ := of_result_times_roll hf.count_pos h
  exact ⟨length_chunkResults _ _ _, fun _ hresult ↦ mem_Icc_of_mem_chunkResults hf hle hresult⟩

end Play

/-! ## The block of an argument -/

/-- What is printed for an argument, by the words that its rolls take. A formula is rolled five
times from these words alone and uses them up, and a text that is none takes no words. -/
inductive Prints : String → List Word → String → Prop
  | rolled {argument : String} {f : Formula} {words : List Word} {results : List Score}
      {after : Table} (hparse : Formula.parse argument = .ok f)
      (hrolls : ((Play.roll f).times 5).result { supply := .ofWords words } = (some results, after))
      (hdry : after.supply.pending = []) (hfive : results.length = 5)
      (hbounds : ∀ result ∈ results, result.toNat ∈ Set.Icc f.minRoll.toNat f.maxRoll.toNat) :
      Prints argument words
        (f.canonical ++ " (" ++ Text.Decimal.text f.minRoll.toNat ++ "..=" ++
          Text.Decimal.text f.maxRoll.toNat ++ "): rolled [" ++
          ", ".intercalate (results.map fun n ↦ Text.Decimal.text n.toNat) ++ "]\n")
  | refused {argument : String} {r : Rejection} (hparse : Formula.parse argument = .error r) :
      Prints argument [] (argument ++ ": " ++ r.message ++ "\n")

/-- Nothing but the argument and the words of its rolls tells in what is printed. -/
theorem Prints.unique {argument text other : String} {words : List Word}
    (h : Prints argument words text) (hother : Prints argument words other) : text = other := by
  cases h with
  | rolled hparse hrolls =>
      cases hother with
      | rolled kparse krolls =>
          rw [hparse] at kparse
          cases kparse
          rw [hrolls] at krolls
          cases krolls
          rfl
      | refused kparse =>
          rw [hparse] at kparse
          cases kparse
  | refused hparse =>
      cases hother with
      | rolled kparse =>
          rw [hparse] at kparse
          cases kparse
      | refused kparse =>
          rw [hparse] at kparse
          cases kparse
          rfl

theorem Prints.count_break {argument text : String} {words : List Word}
    (h : Prints argument words text) :
    text.toList.count '\n' = 1 + argument.toList.count '\n' := by
  cases h with
  | rolled hparse =>
      have hargument := List.count_eq_zero.2 (Formula.break_not_mem_of_parse hparse)
      have hcanonical :=
        List.count_eq_zero.2 (Formula.Limited.of_parse hparse).break_not_mem_canonical
      have hnumber (n : Nat) := List.count_eq_zero.2 (Text.Decimal.break_not_mem_text n)
      have hnumbers (results : List Score) :=
        List.count_eq_zero.2 (Text.break_not_mem_numbers results)
      simp only [String.toList_append, List.count_append, hargument, hcanonical, hnumber, hnumbers]
      decide
  | refused =>
      have hmessage (r : Rejection) := List.count_eq_zero.2 r.break_not_mem_message
      have hends : ": ".toList.count '\n' = 0 ∧ "\n".toList.count '\n' = 1 := by decide
      simp only [String.toList_append, List.count_append, hmessage]
      omega

namespace Block

theorem result_ofArgument_of_ok {argument : String} {f : Formula}
    (h : Formula.parse argument = .ok f) (table : Table) :
    (ofArgument argument).result table =
      ((((Play.roll f).times rollCount).result table).1.map (rolled f),
        (((Play.roll f).times rollCount).result table).2) := by
  rw [ofArgument, Attempt.result_bind, Attempt.result_lift, Play.run_parse, h]
  simp only [Attempt.result_bind]
  rcases ((Play.roll f).times rollCount).result table with ⟨_ | results, after⟩ <;> rfl

theorem result_ofArgument_of_error {argument : String} {r : Rejection}
    (h : Formula.parse argument = .error r) (table : Table) :
    (ofArgument argument).result table =
      (some (.refused argument r),
        { table with journal := table.journal.push (.rejected argument r.message) }) := by
  rw [ofArgument, Attempt.result_bind, Attempt.result_lift, Play.run_parse, h]
  rfl

theorem text_rolled (f : Formula) (results : List Score) :
    (rolled f results).text =
      f.canonical ++ " (" ++ Text.Decimal.text f.minRoll.toNat ++ "..=" ++
        Text.Decimal.text f.maxRoll.toNat ++ "): rolled [" ++
        ", ".intercalate (results.map fun n ↦ Text.Decimal.text n.toNat) ++ "]\n" := by
  have hbracket : "): rolled [" = "): rolled " ++ "[" := rfl
  have hend : "]\n" = "]" ++ "\n" := rfl
  rw [text, heading, resultList, hbracket, hend]
  simp only [String.append_assoc]

/-- The words that a block takes are enough for it. -/
theorem exists_words_of_result_ofArgument {argument : String} {table after : Table} {block : Block}
    (h : (ofArgument argument).result table = (some block, after)) :
    ∃ words, table.supply.pending = words ++ after.supply.pending ∧
      Prints argument words block.text := by
  cases hparse : Formula.parse argument with
  | error r =>
      rw [result_ofArgument_of_error hparse] at h
      cases h
      exact ⟨[], rfl, .refused hparse⟩
  | ok f =>
      have hf := Formula.Limited.of_parse hparse
      rw [result_ofArgument_of_ok hparse] at h
      obtain ⟨hblock, rfl⟩ := Prod.mk.inj h
      obtain ⟨results, hresults, rfl⟩ := Option.map_eq_some_iff.1 hblock
      have hrolls : ((Play.roll f).times rollCount).result table = (some results, _) :=
        Prod.ext hresults rfl
      obtain ⟨words, own, hwords, hown, hdry⟩ :=
        Play.exists_words_of_result_times_roll hf.count_pos hrolls
      obtain ⟨hfive, hbounds⟩ := Play.length_and_bounds_of_result_times_roll hf hrolls
      refine ⟨words, hwords, ?_⟩
      rw [text_rolled]
      exact .rolled hparse hown hdry hfive hbounds

end Block

/-! ## All blocks -/

namespace Report

/-- An argument with the words that its rolls take and the text that is printed for it. -/
structure Part where
  argument : String
  words : List Word
  text : String

theorem exists_parts {arguments : List String} {table after : Table} {blocks : List Block}
    (h : (arguments.mapM Block.ofArgument).result table = (some blocks, after)) :
    ∃ parts : List Part, parts.map Part.argument = arguments ∧
      parts.map Part.text = blocks.map Block.text ∧
      table.supply.pending = parts.flatMap Part.words ++ after.supply.pending ∧
      ∀ part ∈ parts, Prints part.argument part.words part.text := by
  induction arguments generalizing table blocks with
  | nil =>
      cases h
      exact ⟨[], rfl, rfl, rfl, by simp⟩
  | cons argument arguments ih =>
      obtain ⟨block, t, rest, hblock, hrest, rfl⟩ := Attempt.result_mapM_cons_eq_some_iff.1 h
      obtain ⟨words, hwords, hprints⟩ := Block.exists_words_of_result_ofArgument hblock
      obtain ⟨parts, harguments, htexts, hpending, hparts⟩ := ih hrest
      refine ⟨⟨argument, words, block.text⟩ :: parts, ?_, ?_, ?_, ?_⟩
      · rw [List.map_cons, harguments]
      · rw [List.map_cons, List.map_cons, htexts]
      · rw [hwords, hpending, List.flatMap_cons, List.append_assoc]
      · exact List.forall_mem_cons.2 ⟨hprints, hparts⟩

/-- Five rolls of each formula among the arguments. -/
def rolls (arguments : List String) : Play (List (List Score)) :=
  (arguments.filterMap fun argument ↦ (Formula.parse argument).toOption).mapM fun f ↦
    (Play.roll f).times 5

theorem isSome_blocks_iff {arguments : List String} {s t : Table}
    (hst : s.supply.pending = t.supply.pending) :
    ((arguments.mapM Block.ofArgument).result s).1.isSome ↔
      ((rolls arguments).result t).1.isSome := by
  induction arguments generalizing s t with
  | nil => simp [rolls]
  | cons argument arguments ih =>
      rw [Attempt.isSome_result_mapM_cons]
      cases hparse : Formula.parse argument with
      | error r =>
          have hrolls : rolls (argument :: arguments) = rolls arguments := by
            rw [rolls, List.filterMap_cons_none (by rw [hparse]; rfl), rolls]
          rw [Block.result_ofArgument_of_error hparse, hrolls]
          exact (and_iff_right rfl).trans (ih hst)
      | ok f =>
          have hrolls : rolls (argument :: arguments) =
              (f :: arguments.filterMap fun argument ↦ (Formula.parse argument).toOption).mapM
                fun f ↦ (Play.roll f).times 5 := by
            rw [rolls, List.filterMap_cons_some (by rw [hparse]; rfl)]
          have hcount := (Formula.Limited.of_parse hparse).count_pos
          obtain ⟨s', hs, -, hsPending⟩ := Play.result_times_roll_eq hcount 5 s
          obtain ⟨t', ht, -, htPending⟩ := Play.result_times_roll_eq hcount 5 t
          have hrest : s'.supply.pending = t'.supply.pending := by
            rw [hsPending, htPending, hst]
          rw [Block.result_ofArgument_of_ok hparse, hrolls, Attempt.isSome_result_mapM_cons,
            Block.rollCount, hs, ht, hst, Option.isSome_map]
          exact and_congr_right fun _ ↦ ih hrest

/-- The arguments that a report is on. Where there are none, three formulas stand in for them. -/
def shown (arguments : List String) : List String :=
  if arguments = [] then ["2d6", "d20", "1d4-1"] else arguments

theorem result_ofArguments (arguments : List String) (table : Table) :
    (ofArguments arguments).result table =
      ((((shown arguments).mapM Block.ofArgument).result table).1.map mk,
        (((shown arguments).mapM Block.ofArgument).result table).2) := by
  have hshown : (if arguments.isEmpty then sampleArguments else arguments) = shown arguments := by
    simp only [List.isEmpty_iff, shown, sampleArguments]
  rw [ofArguments, hshown, Attempt.result_bind]
  rcases ((shown arguments).mapM Block.ofArgument).result table with ⟨_ | blocks, after⟩ <;> rfl

theorem count_break_text {parts : List Part}
    (h : ∀ part ∈ parts, Prints part.argument part.words part.text) :
    (String.join (parts.map Part.text)).toList.count '\n' =
      parts.length +
        ((parts.map Part.argument).map fun argument ↦ argument.toList.count '\n').sum := by
  induction parts with
  | nil => rfl
  | cons part parts ih =>
      obtain ⟨hpart, hparts⟩ := List.forall_mem_cons.1 h
      rw [List.map_cons, String.join_cons, String.toList_append, List.count_append, ih hparts,
        hpart.count_break, List.length_cons, List.map_cons, List.map_cons, List.sum_cons]
      omega

theorem exitCode_output_eq_zero_iff (report? : Option Report) :
    (output report?).exitCode = 0 ↔ report?.isSome := by
  cases report? with
  | none => decide
  | some report => exact iff_of_true rfl rfl

/-- A report is complete, and the command line ends without failure, exactly if the rolls of the
formulas among its arguments are complete, whatever else there is among them. Each argument has its
block, in order, and only the argument and the words of its own rolls tell in it. A report has a
line break for each block and those that stand in the arguments, for there is none in a formula or
in the reason of a refusal. -/
theorem arguments_have_their_blocks (arguments : List String) (supply : Supply) :
    let outcome := (ofArguments arguments).result { supply }
    let printed := output outcome.1
    let complete := ((rolls (shown arguments)).result { supply }).1.isSome
    (outcome.1.isSome ↔ complete) ∧ (printed.exitCode = 0 ↔ complete) ∧
    (∀ report, outcome.1 = some report →
      printed.exitCode = 0 ∧ printed.text = report.text ∧
      (∃ parts : List Part, parts.map Part.argument = shown arguments ∧
        report.text = String.join (parts.map Part.text) ∧
        supply.pending = parts.flatMap Part.words ++ outcome.2.supply.pending ∧
        ∀ part ∈ parts, Prints part.argument part.words part.text) ∧
      report.text.toList.count '\n' =
        (shown arguments).length +
          ((shown arguments).map fun argument ↦ argument.toList.count '\n').sum) ∧
    (∀ argument words, {text | Prints argument words text}.Subsingleton) ∧
    (∀ argument f, Formula.parse argument = .ok f → '\n' ∉ argument.toList) ∧
    ∀ r : Rejection, '\n' ∉ r.message.toList := by
  intro outcome printed complete
  have houtcome : outcome = _ := result_ofArguments arguments { supply }
  have hcomplete : outcome.1.isSome ↔ complete := by
    rw [houtcome, Option.isSome_map]
    exact isSome_blocks_iff rfl
  refine ⟨hcomplete, (exitCode_output_eq_zero_iff _).trans hcomplete, ?_,
    fun argument words text htext other hother ↦ htext.unique hother,
    fun argument f h ↦ Formula.break_not_mem_of_parse h, Rejection.break_not_mem_message⟩
  intro report hreport
  have hprinted : printed = { text := report.text, exitCode := 0 } := congrArg output hreport
  rw [houtcome] at hreport
  obtain ⟨blocks, hblocks, rfl⟩ := Option.map_eq_some_iff.1 hreport
  obtain ⟨parts, harguments, htexts, hpending, hparts⟩ := exists_parts (Prod.ext hblocks rfl)
  have htext : (mk blocks).text = String.join (parts.map Part.text) := by
    rw [text, htexts]
  rw [hprinted]
  refine ⟨rfl, rfl, ⟨parts, harguments, htext, ?_, hparts⟩, ?_⟩
  · rw [houtcome]
    exact hpending
  · rw [htext, count_break_text hparts, ← harguments, List.length_map]

/-- A formula, a formula with a line break after it and one without sides. -/
theorem report_on_one_formula_and_two_texts :
    let words := [0, 0x40000000, 0x80000000, 0xc0000000, 0]
    let outcome := (ofArguments ["d4", "2d6\n", "1d0"]).result { supply := .ofWords words }
    let printed := output outcome.1
    ∃ report, outcome.1 = some report ∧ printed.text = report.text ∧
      report.text = "1d4 (1..=4): rolled [1, 2, 3, 4, 1]\n" ++
        ("2d6\n: dice string does not match requirements: \"2d6\\n\"\n" ++
        "1d0: a die needs at least one side\n") ∧
      printed.exitCode = 0 ∧ report.text.toList.count '\n' = 4 := by
  intro words outcome printed
  have hformula : Formula.parse "d4" = .ok ⟨1, 4, none⟩ := by
    simp only [Formula.parse, String.reduceToList]
    rfl
  have hbroken : Formula.parse "2d6\n" = .error (.mismatch "2d6\n") := by
    simp only [Formula.parse, String.reduceToList]
    rfl
  have hsideless : Formula.parse "1d0" = .error .zeroSides := by
    simp only [Formula.parse, String.reduceToList]
    rfl
  obtain ⟨after, hrolled⟩ : ∃ after, (Block.ofArgument "d4").result { supply := .ofWords words } =
      (some (.rolled ⟨1, 4, none⟩ [1, 2, 3, 4, 1]), after) := by
    obtain ⟨after, hroll, -⟩ := Play.result_times_roll_eq (f := ⟨1, 4, none⟩) (by decide) 5
      { supply := .ofWords words }
    have hfaces : Die.faces 4 words = [1, 2, 3, 4, 1] := by decide
    change _ = (if _ ≤ (Die.faces 4 words).length then
      some (Play.chunkResults ⟨1, 4, none⟩ (Die.faces 4 words) 5) else none, after) at hroll
    rw [hfaces, if_pos (by decide)] at hroll
    refine ⟨after, ?_⟩
    rw [Block.result_ofArgument_of_ok hformula, Block.rollCount, hroll]
    rfl
  have hblocks := Attempt.result_mapM_cons_eq_some_iff.2 ⟨_, _, _, hrolled,
    Attempt.result_mapM_cons_eq_some_iff.2 ⟨_, _, _, Block.result_ofArgument_of_error hbroken after,
      Attempt.result_mapM_cons_eq_some_iff.2 ⟨_, _, _, Block.result_ofArgument_of_error hsideless _,
        Attempt.result_mapM_nil _, rfl⟩, rfl⟩, rfl⟩
  have hshown : shown ["d4", "2d6\n", "1d0"] = ["d4", "2d6\n", "1d0"] := if_neg (by simp)
  have houtcome : outcome.1 = some ⟨[.rolled ⟨1, 4, none⟩ [1, 2, 3, 4, 1],
      .refused "2d6\n" (.mismatch "2d6\n"), .refused "1d0" .zeroSides]⟩ := by
    simp only [outcome, result_ofArguments, hshown, hblocks, Option.map_some]
  have hfirst : (Block.rolled ⟨1, 4, none⟩ [1, 2, 3, 4, 1]).text =
      "1d4 (1..=4): rolled [1, 2, 3, 4, 1]\n" := by
    rw [← String.toList_inj]
    simp only [Block.text_rolled, Formula.canonical, Text.Decimal.text, String.toList_append,
      String.toList_ofList, String.toList_intercalate, List.map_map, String.reduceToList]
    rfl
  have hsecond : (Block.refused "2d6\n" (.mismatch "2d6\n")).text =
      "2d6\n: dice string does not match requirements: \"2d6\\n\"\n" := by
    rw [← String.toList_inj]
    simp only [Block.text, Rejection.toList_message_mismatch, Rejection.opening,
      String.toList_append, String.reduceToList]
    rfl
  have hthird : (Block.refused "1d0" .zeroSides).text = "1d0: a die needs at least one side\n" := by
    rw [← String.toList_inj]
    simp only [Block.text, Rejection.message_zeroSides, String.toList_append, String.reduceToList]
    rfl
  obtain ⟨-, -, hreport, -⟩ := arguments_have_their_blocks ["d4", "2d6\n", "1d0"] (.ofWords words)
  obtain ⟨hexit, hprinted, -, hcount⟩ := hreport _ houtcome
  refine ⟨_, houtcome, hprinted, ?_, hexit, hcount.trans ?_⟩
  · simp only [text, List.map_cons, List.map_nil, String.join_cons, String.join_nil, hfirst,
      hsecond, hthird, String.append_empty]
  · rw [hshown]
    decide

end Report

end Tabletop
