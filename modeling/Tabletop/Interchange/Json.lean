import Tabletop.Interchange.Datum
import Tabletop.Text.Json

/-!
# Structured data as JSON

All data can be written. Read are null, booleans, integers, texts, lists and records.
-/

namespace Tabletop

open Text

namespace Datum

/-! ## Writing -/

mutual

def json : Datum → String
  | .null | .unit => "null"
  | .bool true => "true"
  | .bool false => "false"
  | .int i => intText i
  | .decimal shown => shown
  | .text s => Json.quote s
  | .bytes bs => Json.bracketed "[" "]" (bs.map fun b => Decimal.text b.toNat)
  | .list items => Json.bracketed "[" "]" (jsonItems items)
  | .record fields => Json.bracketed "\x7b" "\x7d" (jsonFields fields)

def jsonItems : List Datum → List String
  | [] => []
  | d :: ds => d.json :: jsonItems ds

def jsonFields : List (String × Datum) → List String
  | [] => []
  | (name, d) :: fields => (Json.quote name ++ ":" ++ d.json) :: jsonFields fields

end

/-! ## Reading -/

/-- The integer that is written with these characters. -/
def intOf? (letters : List Char) : Option Int :=
  let i :=
    match letters with
    | '-' :: digits => Int.negOfNat (Nat.ofDigitChars 10 digits 0)
    | digits => Int.ofNat (Nat.ofDigitChars 10 digits 0)
  if (intText i).toList = letters then some i else none

def ofWord? (letters : List Char) : Option Datum :=
  if letters = "null".toList then some .null
  else if letters = "true".toList then some (.bool true)
  else if letters = "false".toList then some (.bool false)
  else (intOf? letters).map .int

/-- A list or a record that has been read in part. What it holds has the last part first. -/
inductive Frame where
  | list (items : List Datum)
  /-- The value of the name is to come. -/
  | record (fields : List (String × Datum)) (name : String)

/-- Where a reader of tokens stands: in frames of which the innermost comes first. -/
inductive Progress where
  | beforeValue (frames : List Frame)
  | beforeName (frames : List Frame) (fields : List (String × Datum))
  | afterName (frames : List Frame) (fields : List (String × Datum)) (name : String)
  | afterValue (frames : List Frame) (d : Datum)

/-- A list or a record can be closed when nothing or a value stands before the bracket, and not
after a comma. -/
def Progress.next? : Progress → Json.Token → Option Progress
  | .beforeValue frames, .word letters => (ofWord? letters).map (.afterValue frames)
  | .beforeValue frames, .quoted inner =>
      (Json.unescape? inner).map fun s => .afterValue frames (.text s)
  | .beforeValue frames, .leftBracket => some (.beforeValue (.list [] :: frames))
  | .beforeValue frames, .leftBrace => some (.beforeName frames [])
  | .beforeValue (.list [] :: frames), .rightBracket => some (.afterValue frames (.list []))
  | .beforeName frames [], .rightBrace => some (.afterValue frames (.record []))
  | .beforeName frames fields, .quoted inner =>
      (Json.unescape? inner).map fun name => .afterName frames fields name
  | .afterName frames fields name, .colon => some (.beforeValue (.record fields name :: frames))
  | .afterValue (.list items :: frames) d, .comma =>
      some (.beforeValue (.list (d :: items) :: frames))
  | .afterValue (.list items :: frames) d, .rightBracket =>
      some (.afterValue frames (.list (d :: items).reverse))
  | .afterValue (.record fields name :: frames) d, .comma =>
      some (.beforeName frames ((name, d) :: fields))
  | .afterValue (.record fields name :: frames) d, .rightBrace =>
      some (.afterValue frames (.record ((name, d) :: fields).reverse))
  | _, _ => none

/-- The datum that stands in a JSON text. -/
def ofJson? (text : String) : Option Datum := do
  let tokens ← Json.tokens? text
  match ← tokens.foldlM Progress.next? (.beforeValue []) with
  | .afterValue [] d => return d
  | _ => none

end Datum

end Tabletop
