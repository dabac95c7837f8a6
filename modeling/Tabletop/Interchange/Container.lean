import Tabletop.Interchange.Json
import Tabletop.Interchange.Reading

/-!
# Containers of formulas

Formulas in lists, optional values, maps and encounters. The reader of a container is told its
shape and stops at the first fault; a container is written with the canonical texts of its
formulas.
-/

namespace Tabletop

/-- What a party may meet: how many of them, and what they deal. -/
structure Encounter where
  name : String
  count : Formula
  damage : Formula
  deriving BEq

inductive Shape where
  | list
  | option
  | map
  | encounter
  deriving DecidableEq

inductive Container where
  | list (fs : List Formula)
  | option (f? : Option Formula)
  | map (entries : List (String × Formula))
  | encounter (e : Encounter)
  deriving BEq

namespace Encounter

/-- What is known of an encounter while its fields are read. -/
structure Draft where
  name : Option String := none
  count : Option Formula := none
  damage : Option Formula := none

def readName : Datum → Except ReadError String
  | .text s => .ok s
  | d => .error (.wrongType d .text)

/-- Unknown fields are passed over. -/
def Draft.readField (e : Draft) : String × Datum → Except ReadError Draft
  | ("name", d) => return { e with name := some (← readName d) }
  | ("count", d) => return { e with count := some (← Formula.ofDatum d) }
  | ("damage", d) => return { e with damage := some (← Formula.ofDatum d) }
  | _ => pure e

def Draft.complete (e : Draft) : Except ReadError Encounter :=
  match e.name, e.count, e.damage with
  | none, _, _ => .error (.missingField "name")
  | _, none, _ => .error (.missingField "count")
  | _, _, none => .error (.missingField "damage")
  | some name, some count, some damage => .ok { name, count, damage }

/-- Fields are read by ascending name, and looked for afterwards. -/
def ofFields (fields : List (String × Datum)) : Except ReadError Encounter := do
  let e ← (Datum.byName fields).foldlM Draft.readField {}
  e.complete

/-- A list stands for the name, the count and the damage. -/
def ofItems : List Datum → Except ReadError Encounter
  | [] => .error (.tooShort 0)
  | [name] => do
      let _ ← readName name
      .error (.tooShort 1)
  | [name, count] => do
      let _ ← readName name
      let _ ← Formula.ofDatum count
      .error (.tooShort 2)
  | name :: count :: damage :: rest => do
      let name ← readName name
      let count ← Formula.ofDatum count
      let damage ← Formula.ofDatum damage
      if rest.isEmpty then return { name, count, damage }
      else .error (.tooLong (rest.length + 3))

def toDatum (e : Encounter) : Datum :=
  .record [("name", .text e.name), ("count", e.count.toDatum), ("damage", e.damage.toDatum)]

end Encounter

namespace Shape

def readEntry : String × Datum → Except ReadError (String × Formula)
  | (name, d) => return (name, ← Formula.ofDatum d)

def read : Shape → Datum → Except ReadError Container
  | .list, .list items => return .list (← items.mapM Formula.ofDatum)
  | .list, d => .error (.wrongType d .list)
  | .option, .null | .option, .unit => return .option none
  | .option, d => return .option (some (← Formula.ofDatum d))
  | .map, .record fields => return .map (← (Datum.byName fields).mapM readEntry)
  | .map, d => .error (.wrongType d .record)
  | .encounter, .record fields => return .encounter (← Encounter.ofFields fields)
  | .encounter, .list items => return .encounter (← Encounter.ofItems items)
  | .encounter, d => .error (.wrongType d .encounter)

/-- Reads a container from a JSON text. None if there is no datum to be read from it. -/
def readJson? (shape : Shape) (text : String) : Option (Except ReadError Container) :=
  (Datum.ofJson? text).map shape.read

end Shape

namespace Container

def shape : Container → Shape
  | .list _ => .list
  | .option _ => .option
  | .map _ => .map
  | .encounter _ => .encounter

def toDatum : Container → Datum
  | .list fs => .list (fs.map Formula.toDatum)
  | .option none => .null
  | .option (some f) => f.toDatum
  | .map entries => .record (entries.map fun (name, f) => (name, f.toDatum))
  | .encounter e => e.toDatum

def json (c : Container) : String :=
  c.toDatum.json

/-- Is `c`, written and read again, an equal container? -/
def comesBack (c : Container) : Bool :=
  match c.shape.readJson? c.json with
  | some (.ok d) => d == c
  | _ => false

end Container

end Tabletop
