import Tabletop.Formula.Basic
import Tabletop.Random.Supply

/-!
# Dice

A word chooses a face by the upper half of its product with the number of sides. Words whose lower
half lies beyond the zone are passed over, so that every face belongs to equally many words.
-/

namespace Tabletop.Die

/-- The greatest lower half that is accepted: one less than the number of sides, shifted left until
it fills 32 bits. -/
def zone (sides : UInt16) : Nat :=
  sides.toNat <<< (31 - sides.toNat.log2) - 1

/-- The face that a word chooses, if the word is accepted. -/
def face? (sides : UInt16) (w : Word) : Option Score :=
  let product := w.toNat * sides.toNat
  if product % 0x100000000 ≤ zone sides then
    some (UInt32.ofNat (1 + product / 0x100000000))
  else none

/-- The face of the first accepted word. -/
def next? (sides : UInt16) (s : Supply) : Option Score × Supply :=
  match _ : s.next? with
  | none => (none, s)
  | some (w, rest) =>
      match face? sides w with
      | some face => (some face, rest)
      | none => next? sides rest
termination_by s.left
decreasing_by exact Supply.left_lt_of_next? ‹_›

theorem next?_of_dry {sides : UInt16} {s : Supply} (h : s.next? = none) :
    next? sides s = (none, s) := by
  rw [next?]
  split <;> simp_all

theorem next?_of_accepted {sides : UInt16} {s rest : Supply} {w : Word} {face : Score}
    (h : s.next? = some (w, rest)) (hface : face? sides w = some face) :
    next? sides s = (some face, rest) := by
  rw [next?]
  split <;> simp_all

theorem next?_of_passed {sides : UInt16} {s rest : Supply} {w : Word}
    (h : s.next? = some (w, rest)) (hface : face? sides w = none) :
    next? sides s = next? sides rest := by
  rw [next?]
  split <;> simp_all

def draw (sides : UInt16) : Draw Score :=
  .ofResult (next? sides)

end Tabletop.Die
