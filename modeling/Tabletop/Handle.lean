import Tabletop.Account

/-!
# Handles

A handle is a formula in the hands of a caller who knows nothing else of the library. It is made
once from a text and then asked, as often as the caller likes.
-/

namespace Tabletop

structure Handle where
  formula : Formula

namespace Handle

inductive Call where
  | roll
  | canonical
  | minRoll
  | maxRoll

inductive Reply where
  | score (result : Score)
  | text (s : String)

def ofText (text : String) : StateM Table (Except Rejection Handle) := do
  match ← Play.parse text with
  | .ok formula => pure (.ok { formula })
  | .error r => pure (.error r)

def call (h : Handle) : Call → Play Reply
  | .roll => return .score (← Play.roll h.formula)
  | .canonical => return .text h.formula.canonical
  | .minRoll => return .score h.formula.minRoll
  | .maxRoll => return .score h.formula.maxRoll

/-- Makes a call and accounts for it. A call that finds the supply dry gives no reply. -/
def callAccount (h : Handle) (c : Call) : StateM Table (Account (Option Reply)) :=
  Play.account (h.call c).run

/-- Makes the calls in order. -/
def callAll (h : Handle) (calls : List Call) : StateM Table (List (Account (Option Reply))) :=
  calls.mapM h.callAccount

end Handle

end Tabletop
