import Tabletop.Formula.Canonical
import Tabletop.Formula.Parse
import Tabletop.Journal
import Tabletop.Roll

/-!
# Play at a table

A table has one supply of words and one journal. Reading a formula and rolling it are the acts that
the journal knows: a refused text is entered, and so is a completed roll. A roll that runs out of
words leaves no entry, though the words that it took stay taken.
-/

namespace Tabletop

structure Table where
  supply : Supply
  journal : Array Entry := #[]

/-- An attempt to play at a table. It fails when the supply runs dry. -/
abbrev Play := Attempt Table

namespace Play

def record (entry : Entry) : StateM Table Unit :=
  modify fun table => { table with journal := table.journal.push entry }

def draw {α : Type} (x : Draw α) : Play α :=
  .ofResult fun table =>
    let (outcome, supply) := x.result table.supply
    (outcome, { table with supply })

def parse (text : String) : StateM Table (Except Rejection Formula) := do
  match Formula.parse text with
  | .ok f => pure (.ok f)
  | .error r =>
      record (.rejected text r.message)
      pure (.error r)

/-- The conversion of a text. -/
def fromText (text : String) : StateM Table (Except Rejection Formula) :=
  parse text

/-- The attempt to convert a text that the caller keeps. -/
def tryBorrowed (text : String) : StateM Table (Except Rejection Formula) :=
  parse text

/-- The attempt to convert a text that the caller gives away. -/
def tryOwned (text : String) : StateM Table (Except Rejection Formula) :=
  parse text

def roll (f : Formula) : Play Score := do
  let r ← draw f.draw
  record (.rolled f.canonical r.sum r.result)
  pure r.result

end Play

/-- The ways in which a caller may have a text read. -/
inductive EntryPoint where
  | parse
  | fromText
  | tryBorrowed
  | tryOwned

def EntryPoint.read : EntryPoint → String → StateM Table (Except Rejection Formula)
  | .parse => Play.parse
  | .fromText => Play.fromText
  | .tryBorrowed => Play.tryBorrowed
  | .tryOwned => Play.tryOwned

/-- A text is read alike whatever way it comes in. -/
theorem EntryPoint.read_eq_parse (entry : EntryPoint) : entry.read = Play.parse := by
  cases entry <;> rfl

namespace Play

/-! ## What an act does to the table -/

/-- Reading leaves no trace but an entry for a refused text. -/
theorem run_parse (text : String) (table : Table) :
    (parse text).run table =
      (Formula.parse text,
        match Formula.parse text with
        | .ok _ => table
        | .error r => { table with journal := table.journal.push (.rejected text r.message) }) := by
  cases h : Formula.parse text with
  | ok f => simp only [parse, h]; rfl
  | error r => simp only [parse, h]; rfl

/-- Rolling leaves an entry where the dice could be drawn. -/
theorem result_roll (f : Formula) (table : Table) :
    (roll f).result table =
      match f.draw.result table.supply with
      | (none, supply) => (none, { table with supply })
      | (some r, supply) =>
          (some r.result,
            { supply, journal := table.journal.push (.rolled f.canonical r.sum r.result) }) := by
  rw [roll, Attempt.result_bind, draw, Attempt.result_ofResult]
  rcases f.draw.result table.supply with ⟨_ | r, supply⟩ <;> rfl

end Play

end Tabletop
