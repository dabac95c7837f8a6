import Tabletop.Formula.Basic
import Tabletop.Text.Decimal

/-!
# The canonical text of a formula

The number of dice is always written and a zero adjustment never is, so equal formulas share one
text.
-/

namespace Tabletop

open Text

def Adjustment.chars (a : Adjustment) : List Char :=
  a.sign.symbol :: Decimal.write a.amount.toNat

namespace Formula

def canonicalChars (f : Formula) : List Char :=
  Decimal.write f.count.toNat ++ 'd' :: Decimal.write f.sides.toNat ++
    (f.effective.map Adjustment.chars).getD []

def canonical (f : Formula) : String :=
  String.ofList f.canonicalChars

instance : ToString Formula := ⟨canonical⟩

end Formula

end Tabletop
