import Tabletop.Play

/-!
# Reports

What the command line prints: for each argument a block that ends in a line break. A formula is
shown with its bounds and five results, any other argument with the reason why it is none.
-/

namespace Tabletop

open Text

inductive Block where
  | rolled (f : Formula) (results : List Score)
  | refused (argument : String) (r : Rejection)

namespace Block

/-- How often a formula is rolled. -/
def rollCount : Nat := 5

/-- A formula and its bounds. -/
def heading (f : Formula) : String :=
  f.canonical ++ " (" ++ Decimal.text f.minRoll.toNat ++ "..=" ++ Decimal.text f.maxRoll.toNat ++
    "): rolled "

def resultList (results : List Score) : String :=
  "[" ++ ", ".intercalate (results.map fun n => Decimal.text n.toNat) ++ "]"

def text : Block → String
  | .rolled f results => heading f ++ resultList results ++ "\n"
  | .refused argument r => argument ++ ": " ++ r.message ++ "\n"

def ofArgument (argument : String) : Play Block := do
  match ← Play.parse argument with
  | .ok f => return .rolled f (← (Play.roll f).times rollCount)
  | .error r => return .refused argument r

end Block

structure Report where
  blocks : List Block

namespace Report

/-- Stands in for an empty list of arguments. -/
def sampleArguments : List String :=
  ["2d6", "d20", "1d4-1"]

def ofArguments (arguments : List String) : Play Report := do
  let arguments := if arguments.isEmpty then sampleArguments else arguments
  return { blocks := ← arguments.mapM Block.ofArgument }

def text (report : Report) : String :=
  String.join (report.blocks.map Block.text)

/-- What the command line prints, and the code with which it ends. -/
structure Output where
  text : String
  exitCode : UInt32

/-- A refused argument is part of a report and no failure of it. Where the words ran out, there is
no report, and nothing is printed. -/
def output : Option Report → Output
  | some report => { text := report.text, exitCode := 0 }
  | none => { text := "", exitCode := 1 }

end Report

end Tabletop
