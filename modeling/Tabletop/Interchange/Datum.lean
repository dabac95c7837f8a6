import Tabletop.Text.Decimal
import Tabletop.Text.Quoted

/-!
# Structured data

The values in which formulas travel. `describe` names a value in an error message.
-/

namespace Tabletop

inductive Datum where
  | null
  | unit
  | bool (b : Bool)
  | int (i : Int)
  /-- A number that is no integer, by the text it is shown as. -/
  | decimal (shown : String)
  | text (s : String)
  | bytes (bs : List UInt8)
  | list (items : List Datum)
  | record (fields : List (String × Datum))

namespace Datum

def intText : Int → String
  | .ofNat n => Text.Decimal.text n
  | .negSucc n => "-" ++ Text.Decimal.text (n + 1)

/-- Booleans and numbers stand between grave accents, texts between double quotes. -/
def describe : Datum → String
  | .null => "null"
  | .unit => "unit value"
  | .bool true => "boolean \x60true\x60"
  | .bool false => "boolean \x60false\x60"
  | .int i => "integer \x60" ++ intText i ++ "\x60"
  | .decimal shown => "floating point \x60" ++ shown ++ "\x60"
  | .text s => "string " ++ Text.Quoted.quote s
  | .bytes _ => "byte array"
  | .list _ => "sequence"
  | .record _ => "map"

/-- Puts a field into a list of fields that ascends by name, in place of one of its name. -/
def insertField {α : Type} (name : String) (value : α) : List (String × α) → List (String × α)
  | [] => [(name, value)]
  | (other, held) :: rest =>
      if name < other then (name, value) :: (other, held) :: rest
      else if name = other then (name, value) :: rest
      else (other, held) :: insertField name value rest

/-- The fields by ascending name. Of several with one name the last one counts. -/
def byName {α : Type} (fields : List (String × α)) : List (String × α) :=
  fields.foldl (fun sorted (name, value) => insertField name value sorted) []

end Datum

end Tabletop
