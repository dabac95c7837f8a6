import Tabletop.Die

/-!
# Rolls of a formula
-/

namespace Tabletop

/-- What the dice add up to, and what the formula makes of it. -/
structure Roll where
  sum : Score
  result : Score
  deriving DecidableEq, Repr

namespace Formula

/-- The roll in which the dice show `faces`. -/
def settle (f : Formula) (faces : List Score) : Roll :=
  let sum := faces.foldl (· + ·) 0
  { sum, result := f.adjust sum }

/-- All dice are drawn before the adjustment is made, once. -/
def draw (f : Formula) : Draw Roll := do
  let faces ← (Die.draw f.sides).times f.count.toNat
  pure (f.settle faces)

end Formula

end Tabletop
