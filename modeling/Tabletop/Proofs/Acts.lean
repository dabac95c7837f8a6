import Mathlib
import Tabletop.Account
import Tabletop.Interchange.Reading
import Tabletop.Proofs.Trials

/-!
# Acts and their entries in the journal

The journal has an entry for each text that was refused and for each roll that was completed, in the
order of these acts, and no others. The entry of a roll is enough to have it again: its text, read
anew and rolled from the words that the roll took, takes these words and makes this entry.
-/

namespace Tabletop

/-! ## Words taken on their own -/

namespace Die

variable {sides : UInt16}

/-- Of the words that come before what `m` accepted words leave, as many leave nothing. -/
theorem after_eq_nil_of_append {taken ws : List Word} {m : Nat}
    (h : taken ++ after sides m ws = ws) : after sides m taken = [] := by
  induction taken generalizing m ws with
  | nil => exact after_nil m
  | cons w taken ih =>
      obtain ⟨ws, rfl⟩ : ∃ rest, ws = w :: rest := ⟨_, h.symm⟩
      cases m with
      | zero =>
          have hlength := congrArg List.length h
          simp only [after_zero, List.length_append, List.length_cons] at hlength
          omega
      | succ m =>
          by_cases hw : Accepts sides w
          · rw [after_succ_cons_of_accepts hw] at h ⊢
            exact ih (List.cons.inj h).2
          · rw [after_succ_cons_of_not_accepts hw] at h ⊢
            exact ih (List.cons.inj h).2

theorem faces_eq_take_of_append {taken ws : List Word} {m : Nat}
    (h : taken ++ after sides m ws = ws) (hm : m ≤ (faces sides ws).length) :
    faces sides taken = (faces sides ws).take m := by
  have hsplit : faces sides taken ++ (faces sides ws).drop m = faces sides ws := by
    rw [← faces_after, faces, faces, ← List.filterMap_append, h, faces]
  have hlength : (faces sides taken).length = m := by
    have hlengths := congrArg List.length hsplit
    rw [List.length_append, List.length_drop] at hlengths
    omega
  rw [← hsplit, ← hlength, List.take_left]

end Die

theorem Formula.Limited.shows_take_faces {f : Formula} (hf : f.Limited) {ws : List Word}
    (h : f.count.toNat ≤ (Die.faces f.sides ws).length) :
    f.Shows (((Die.faces f.sides ws).take f.count.toNat).map UInt32.toNat) := by
  rw [List.map_take, Die.map_toNat_faces, ← List.map_take]
  apply hf.shows_map_faceOf
  rw [List.length_take, ← Die.length_faces, Nat.min_eq_left h]

/-! ## Acts -/

/-- What the journal may come to know of. -/
inductive Act where
  | parse (entry : EntryPoint) (text : String)
  | read (d : Datum)
  | roll (f : Formula)

namespace Act

inductive Reply where
  | parsed (outcome : Except Rejection Formula)
  | read (outcome : Except ReadError Formula)
  /-- None where the words ran out. -/
  | rolled (result? : Option Score)

def perform : Act → StateM Table Reply
  | .parse entry text => return .parsed (← entry.read text)
  | .read d => return .read (← Play.read d)
  | .roll f => return .rolled (← (Play.roll f).run)

theorem run_perform_parse (entry : EntryPoint) (text : String) (table : Table) :
    (Act.parse entry text).perform.run table =
      (.parsed ((Play.parse text).run table).1, ((Play.parse text).run table).2) := by
  rw [← entry.read_eq_parse]
  rfl

theorem run_perform_read_text (text : String) (table : Table) :
    (Act.read (.text text)).perform.run table =
      (.read (((Play.parse text).run table).1.mapError .rejected),
        ((Play.parse text).run table).2) :=
  rfl

theorem run_perform_roll (f : Formula) (table : Table) :
    (Act.roll f).perform.run table =
      (.rolled ((Play.roll f).result table).1, ((Play.roll f).result table).2) :=
  rfl

/-- An act that has been performed, with the tables before and after it. -/
structure Step where
  act : Act
  before : Table
  reply : Reply
  after : Table

namespace Step

/-- The words that the act took. -/
def words (step : Step) : List Word :=
  step.before.supply.pending.take (step.after.supply.delivered - step.before.supply.delivered)

/-- The entries that the act made. -/
def entries (step : Step) : List Entry :=
  (Account.between step.before step.after step.reply).entries

variable {step : Step}

theorem entries_eq {entries : List Entry}
    (h : step.after.journal.toList = step.before.journal.toList ++ entries) :
    step.entries = entries := by
  rw [Step.entries, Account.between, h]
  exact List.drop_left

theorem words_append_pending (h : step.before.supply.Advances step.after.supply) :
    step.words ++ step.after.supply.pending = step.before.supply.pending := by
  rw [words, h.pending_eq_drop, List.take_append_drop]

theorem words_eq_pending (h : step.before.supply.Advances step.after.supply)
    (hdry : step.after.supply.pending = []) : step.words = step.before.supply.pending := by
  have hwords := words_append_pending h
  rwa [hdry, List.append_nil] at hwords

theorem words_eq_nil (h : step.after.supply = step.before.supply) : step.words = [] := by
  rw [words, h, Nat.sub_self, List.take_zero]

end Step

def step (act : Act) (table : Table) : Step :=
  let (reply, after) := act.perform.run table
  { act, before := table, reply, after }

/-- The acts in order, each at the table that the one before has left. -/
def steps : List Act → Table → List Step
  | [], _ => []
  | act :: acts, table => act.step table :: steps acts (act.step table).after

theorem map_act_steps (acts : List Act) (table : Table) :
    (steps acts table).map Step.act = acts := by
  induction acts generalizing table with
  | nil => rfl
  | cons act acts ih => exact congrArg _ (ih _)

theorem run_mapM_cons (act : Act) (acts : List Act) (table : Table) :
    ((act :: acts).mapM perform).run table =
      ((act.step table).reply :: ((acts.mapM perform).run (act.step table).after).1,
        ((acts.mapM perform).run (act.step table).after).2) := by
  rw [List.mapM_cons]
  rfl

/-! ## The entries of one act -/

/-- The text `dice` reads as a formula, without an entry, and this formula, rolled from `ws` alone,
takes all of them and makes the entry with this text, sum and result. -/
def Replays (dice : String) (sum result : Score) (ws : List Word) : Prop :=
  ∃ f, (∀ table, (Play.parse dice).run table = (.ok f, table)) ∧
    ∃ supply, (Play.roll f).result { supply := .ofWords ws } =
        (some result, { supply, journal := #[.rolled dice sum result] }) ∧
      supply.pending = [] ∧ supply.delivered = ws.length

/-- The entries that belong to an act, by what it came to and the words that it took. -/
inductive Logs : Act → Reply → List Word → List Entry → Prop
  | parsed (entry : EntryPoint) {text : String} {f : Formula} (h : Formula.parse text = .ok f) :
      Logs (.parse entry text) (.parsed (.ok f)) [] []
  | rejected (entry : EntryPoint) {text : String} {r : Rejection}
      (h : Formula.parse text = .error r) :
      Logs (.parse entry text) (.parsed (.error r)) [] [.rejected text r.message]
  | read {d : Datum} {f : Formula} (h : Formula.ofDatum d = .ok f) :
      Logs (.read d) (.read (.ok f)) [] []
  | readRejected {text : String} {r : Rejection} (h : Formula.parse text = .error r) :
      Logs (.read (.text text)) (.read (.error (.rejected r))) []
        [.rejected text (ReadError.rejected r).message]
  /-- A datum that is no text never comes to be parsed. -/
  | notText {d : Datum} {e : ReadError} (hd : ∀ text, d ≠ .text text)
      (h : Formula.ofDatum d = .error e) : Logs (.read d) (.read (.error e)) [] []
  | rolled {f : Formula} {sum result : Score} {ws : List Word}
      (hsum : sum.toNat ∈ Set.Icc f.count.toNat (f.count.toNat * f.sides.toNat))
      (hreplay : Replays f.canonical sum result ws) :
      Logs (.roll f) (.rolled (some result)) ws [.rolled f.canonical sum result]
  /-- The words have fewer faces than the formula has dice. -/
  | dry {f : Formula} {ws : List Word} (h : (Die.faces f.sides ws).length < f.count.toNat) :
      Logs (.roll f) (.rolled none) ws []

theorem Replays.of_draw {f : Formula} (hf : f.Limited) {ws taken : List Word}
    (h : f.count.toNat ≤ (Die.faces f.sides ws).length)
    (htaken : taken ++ Die.after f.sides f.count.toNat ws = ws) :
    let r := f.settle ((Die.faces f.sides ws).take f.count.toNat)
    Replays f.canonical r.sum r.result taken := by
  intro r
  have hfaces := Die.faces_eq_take_of_append htaken h
  refine ⟨f.trimmed, fun table ↦ ?_, ?_⟩
  · rw [Play.run_parse, hf.parse_canonical]
  · obtain ⟨supply, hdraw, hadvances, hpending⟩ := f.result_draw (.ofWords taken)
    change supply.pending = Die.after f.sides _ taken at hpending
    rw [Die.after_eq_nil_of_append htaken] at hpending
    have hdelivered : supply.delivered + supply.pending.length = taken.length :=
      hadvances.delivered.trans (Nat.zero_add _)
    -- The faces of the words taken are those that the roll saw, so it comes out as it did.
    change f.draw.result _ = (if _ ≤ (Die.faces f.sides taken).length then
      some (f.settle ((Die.faces f.sides taken).take _)) else none, supply) at hdraw
    rw [hfaces, if_pos (by rw [List.length_take, Nat.min_eq_left h]), List.take_take,
      Nat.min_self] at hdraw
    refine ⟨supply, ?_, hpending, ?_⟩
    · rw [Formula.roll_congr f.trimmed_beq, Play.result_roll, hdraw]
      rfl
    · rwa [hpending] at hdelivered

/-- The journal goes on by the entries of the step and the supply by its words, the entries are
those that belong to it, and a roll comes to nothing only when no words are left. -/
structure Step.Told (step : Step) : Prop where
  journal : step.after.journal.toList = step.before.journal.toList ++ step.entries
  pending : step.before.supply.pending = step.words ++ step.after.supply.pending
  logs : Logs step.act step.reply step.words step.entries
  dry : step.reply = .rolled none → step.after.supply.pending = []

theorem Step.Told.of_entries {step : Step} {entries : List Entry}
    (hjournal : step.after.journal.toList = step.before.journal.toList ++ entries)
    (hadvances : step.before.supply.Advances step.after.supply)
    (hlogs : Logs step.act step.reply step.words entries)
    (hdry : step.reply = .rolled none → step.after.supply.pending = []) : step.Told := by
  obtain rfl := entries_eq hjournal
  exact ⟨hjournal, (words_append_pending hadvances).symm, hlogs, hdry⟩

/-- Reading takes no words. -/
theorem Step.Told.of_supply_eq {step : Step} {entries : List Entry}
    (hjournal : step.after.journal.toList = step.before.journal.toList ++ entries)
    (hsupply : step.after.supply = step.before.supply)
    (hlogs : Logs step.act step.reply [] entries)
    (hread : ∀ result?, step.reply ≠ .rolled result?) : step.Told := by
  refine .of_entries hjournal ?_ ?_ fun h ↦ absurd h (hread none)
  · rw [hsupply]
    exact .refl _
  · rwa [words_eq_nil hsupply]

theorem told_parse (entry : EntryPoint) (text : String) (table : Table) :
    ((Act.parse entry text).step table).Told := by
  rw [step, run_perform_parse, Play.run_parse]
  cases h : Formula.parse text with
  | ok f => exact .of_supply_eq (List.append_nil _).symm rfl (.parsed entry h) (by simp)
  | error r => exact .of_supply_eq Array.toList_push rfl (.rejected entry h) (by simp)

theorem told_read (d : Datum) (table : Table) : ((Act.read d).step table).Told := by
  by_cases hd : ∃ text, d = .text text
  · obtain ⟨text, rfl⟩ := hd
    rw [step, run_perform_read_text, Play.run_parse]
    cases h : Formula.parse text with
    | ok f =>
        have hread : Formula.ofDatum (.text text) = .ok f := by
          rw [Formula.ofDatum, h]
          rfl
        exact .of_supply_eq (List.append_nil _).symm rfl (.read hread) (by simp)
    | error r => exact .of_supply_eq Array.toList_push rfl (.readRejected h) (by simp)
  · have hnot : ∀ text, d ≠ .text text := fun text htext ↦ hd ⟨text, htext⟩
    have hread : Formula.ofDatum d = .error (.wrongType d .formula) := by
      cases d <;> first | rfl | exact absurd rfl (hnot _)
    have hrun : (Act.read d).perform.run table =
        (.read (.error (.wrongType d .formula)), table) := by
      cases d <;> first | rfl | exact absurd rfl (hnot _)
    rw [step, hrun]
    exact .of_supply_eq (List.append_nil _).symm rfl (.notText hnot hread) (by simp)

theorem told_roll {f : Formula} (hf : f.Limited) (table : Table) :
    ((Act.roll f).step table).Told := by
  obtain ⟨supply, hdraw, hadvances, hpending⟩ := f.result_draw table.supply
  rw [step, run_perform_roll, Play.result_roll, hdraw]
  split_ifs with hle
  · have hshows := hf.shows_take_faces hle
    refine .of_entries Array.toList_push hadvances (.rolled ?_ (.of_draw hf hle ?_)) (by simp)
    · rw [hf.toNat_sum_settle hshows]
      exact hshows.sum_mem_Icc
    · rw [← hpending]
      exact Step.words_append_pending hadvances
  · -- All words are taken, and their faces are too few.
    rw [Die.after_eq_nil (Nat.lt_of_not_le hle)] at hpending
    have hwords : Step.words ⟨.roll f, table, .rolled none, { table with supply }⟩ =
        table.supply.pending := Step.words_eq_pending hadvances hpending
    refine .of_entries (List.append_nil _).symm hadvances (.dry ?_) fun _ ↦ hpending
    rw [hwords]
    exact Nat.lt_of_not_le hle

theorem told_step {act : Act} (hact : ∀ f, act = .roll f → f.Limited) (table : Table) :
    (act.step table).Told := by
  cases act with
  | parse entry text => exact told_parse entry text table
  | read d => exact told_read d table
  | roll f => exact told_roll (hact f rfl) table

/-! ## The journal of a run -/

theorem told_steps {acts : List Act} (hacts : ∀ f, .roll f ∈ acts → f.Limited) (table : Table) :
    let run := (acts.mapM perform).run table
    run.1 = (steps acts table).map Step.reply ∧
      run.2.journal.toList = table.journal.toList ++ (steps acts table).flatMap Step.entries ∧
      table.supply.pending = (steps acts table).flatMap Step.words ++ run.2.supply.pending ∧
      ∀ step ∈ steps acts table, step.Told := by
  induction acts generalizing table with
  | nil =>
      refine ⟨rfl, (List.append_nil _).symm, rfl, ?_⟩
      intro step hstep
      cases hstep
  | cons act acts ih =>
      have htold : (act.step table).Told :=
        told_step (fun f hf ↦ hacts f (hf ▸ List.mem_cons_self)) table
      obtain ⟨hreplies, hjournal, hpending, hlater⟩ :=
        ih (fun f hf ↦ hacts f (List.mem_cons_of_mem _ hf)) (act.step table).after
      intro run
      rw [show run = _ from run_mapM_cons act acts table, steps]
      refine ⟨congrArg _ hreplies, ?_, ?_, List.forall_mem_cons.2 ⟨htold, hlater⟩⟩
      · rw [hjournal, htold.journal, List.flatMap_cons, List.append_assoc]
        rfl
      · rw [List.flatMap_cons, List.append_assoc, ← hpending]
        exact htold.pending

/-- From an empty journal, acts in which only formulas that were read from text are rolled leave the
entries that belong to them, act by act, and nothing else. What they took, word by word, is what the
supply has lost, and a roll that comes to nothing has taken all that was left. -/
theorem journal_tells_every_act {acts : List Act}
    (h : ∀ f, .roll f ∈ acts → ∃ text, Formula.parse text = .ok f) (supply : Supply) :
    let run := (acts.mapM perform).run { supply }
    let done := steps acts { supply }
    done.map Step.act = acts ∧ done.map Step.reply = run.1 ∧
      run.2.journal.toList = done.flatMap Step.entries ∧
      supply.pending = done.flatMap Step.words ++ run.2.supply.pending ∧
      ∀ step ∈ done, Logs step.act step.reply step.words step.entries ∧
        (step.reply = .rolled none → step.after.supply.pending = []) := by
  have hlimited : ∀ f, .roll f ∈ acts → f.Limited := by
    intro f hf
    obtain ⟨text, htext⟩ := h f hf
    exact .of_parse htext
  obtain ⟨hreplies, hjournal, hpending, htold⟩ := told_steps hlimited { supply }
  exact ⟨map_act_steps _ _, hreplies.symm, hjournal, hpending, fun step hstep ↦
    ⟨(htold step hstep).logs, (htold step hstep).dry⟩⟩

theorem refusal_roll_and_dry_roll :
    let acts : List Act := [.parse .tryBorrowed "1d0", .roll ⟨2, 6, some ⟨.plus, 0⟩⟩,
      .read (.text "2d6+"), .roll ⟨2, 6, some ⟨.plus, 0⟩⟩]
    let done := steps acts { supply := .ofWords [0xffffffff, 0, 0xc0000000, 0] }
    Formula.parse "2d6+" = .ok ⟨2, 6, some ⟨.plus, 0⟩⟩ ∧
      done.map Step.reply = [.parsed (.error .zeroSides), .rolled (some 6),
        .read (.ok ⟨2, 6, some ⟨.plus, 0⟩⟩), .rolled none] ∧
      done.flatMap Step.entries =
        [.rejected "1d0" "a die needs at least one side", .rolled "2d6" 6 6] ∧
      ∀ step ∈ done, Logs step.act step.reply step.words step.entries ∧
        (step.reply = .rolled none → step.after.supply.pending = []) := by
  intro acts done
  have hread : Formula.parse "2d6+" = .ok ⟨2, 6, some ⟨.plus, 0⟩⟩ := by
    simp only [Formula.parse, String.reduceToList]
    rfl
  have hrefused : Formula.parse "1d0" = .error .zeroSides := by
    simp only [Formula.parse, String.reduceToList]
    rfl
  -- The first word is passed over, the next two show a one and a five, and one is left.
  have hdrawn : (Formula.draw ⟨2, 6, some ⟨.plus, 0⟩⟩).result
      (.ofWords [0xffffffff, 0, 0xc0000000, 0]) = (some ⟨6, 6⟩, ⟨.words [0], 3⟩) := by
    cbv
  have hdry : (Formula.draw ⟨2, 6, some ⟨.plus, 0⟩⟩).result ⟨.words [0], 3⟩ =
      (none, ⟨.words [], 4⟩) := by
    cbv
  have htext : Formula.canonical ⟨2, 6, some ⟨.plus, 0⟩⟩ = "2d6" := by
    cbv
  have hrun : (acts.mapM perform).run { supply := .ofWords [0xffffffff, 0, 0xc0000000, 0] } =
      ([.parsed (.error .zeroSides), .rolled (some 6), .read (.ok ⟨2, 6, some ⟨.plus, 0⟩⟩),
          .rolled none],
        { supply := ⟨.words [], 4⟩
          journal := #[.rejected "1d0" "a die needs at least one side", .rolled "2d6" 6 6] }) := by
    simp only [acts, run_mapM_cons, step, run_perform_parse, run_perform_read_text,
      run_perform_roll, Play.run_parse, Play.result_roll, hread, hrefused, hdrawn, hdry, htext]
    rfl
  have hacts : ∀ f, .roll f ∈ acts → ∃ text, Formula.parse text = .ok f := by
    intro f hf
    have hf : f = ⟨2, 6, some ⟨.plus, 0⟩⟩ := by simpa [acts] using hf
    exact ⟨"2d6+", hf ▸ hread⟩
  obtain ⟨-, hreplies, hjournal, -, hlogs⟩ := journal_tells_every_act hacts
    (.ofWords [0xffffffff, 0, 0xc0000000, 0])
  rw [hrun] at hreplies hjournal
  exact ⟨hread, hreplies, hjournal.symm, hlogs⟩

end Act

end Tabletop
