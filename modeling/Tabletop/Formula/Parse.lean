import Tabletop.Formula.Rejection
import Tabletop.Formula.Written
import Tabletop.Text.Decimal

/-!
# Reading a formula from text
-/

namespace Tabletop

open Text

/-- The formula that the parts of a text stand for. A missing or zero count means one die. -/
def Written.toFormula? (w : Written) : Option Formula :=
  let count := Decimal.read w.count
  let sides := Decimal.read w.sides
  if sides = 0 then none
  else some {
    count := if count = 0 then Formula.defaultCount else count
    sides
    adjustment := w.suffix.map fun (sign, amount) => ⟨sign, (Decimal.read amount).toUInt8⟩ }

namespace Formula

def parse (text : String) : Except Rejection Formula :=
  match Written.ofChars? text.toList with
  | none => .error (.mismatch text)
  | some w =>
      match w.toFormula? with
      | none => .error .zeroSides
      | some f => .ok f

/-- Two outcomes of reading agree when both are equal formulas or both are the same rejection. -/
def sameReading : Except Rejection Formula → Except Rejection Formula → Bool
  | .ok f, .ok g => f == g
  | .error r, .error q => decide (r = q)
  | _, _ => false

end Formula

end Tabletop
