import Tabletop.Interchange.Datum
import Tabletop.Play

/-!
# Formulas in structured data

A formula travels as its text, so reading one is reading a text, and any other datum is of the wrong
type.
-/

namespace Tabletop

/-- What a reader looks for. -/
inductive Expected where
  | formula
  | text
  | list
  | record
  | encounter
  deriving DecidableEq

def Expected.describe : Expected → String
  | .formula => "dice notation like \"2d6+1\""
  | .text => "a string"
  | .list => "a sequence"
  | .record => "a map"
  | .encounter => "struct Encounter"

inductive ReadError where
  | rejected (r : Rejection)
  | wrongType (found : Datum) (expected : Expected)
  | missingField (name : String)
  /-- A list of `length` items where the fields of an encounter were to be. -/
  | tooShort (length : Nat)
  | tooLong (length : Nat)

namespace ReadError

def message : ReadError → String
  | .rejected r => r.message
  | .wrongType found expected =>
      "invalid type: " ++ found.describe ++ ", expected " ++ expected.describe
  | .missingField name => "missing field \x60" ++ name ++ "\x60"
  | .tooShort length =>
      "invalid length " ++ Text.Decimal.text length ++ ", expected struct Encounter with 3 elements"
  | .tooLong length =>
      "invalid length " ++ Text.Decimal.text length ++ ", expected fewer elements in array"

end ReadError

def Formula.ofDatum : Datum → Except ReadError Formula
  | .text s => (Formula.parse s).mapError .rejected
  | d => .error (.wrongType d .formula)

def Formula.toDatum (f : Formula) : Datum :=
  .text f.canonical

/-- Reading at a table enters a refused text into the journal. -/
def Play.read : Datum → StateM Table (Except ReadError Formula)
  | .text s => do return (← Play.parse s).mapError .rejected
  | d => pure (.error (.wrongType d .formula))

end Tabletop
