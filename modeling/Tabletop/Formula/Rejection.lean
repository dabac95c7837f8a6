import Tabletop.Text.Quoted

/-!
# Why a text is no formula
-/

namespace Tabletop

inductive Rejection where
  /-- The text does not have the shape of a formula. -/
  | mismatch (text : String)
  /-- The text has the shape of a formula, but its dice have no sides. -/
  | zeroSides
  deriving DecidableEq, Repr

def Rejection.message : Rejection → String
  | .mismatch text => "dice string does not match requirements: " ++ Text.Quoted.quote text
  | .zeroSides => "a die needs at least one side"

instance : ToString Rejection := ⟨Rejection.message⟩

end Tabletop
