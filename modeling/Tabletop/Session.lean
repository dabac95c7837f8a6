import Std.Data.HashMap
import Tabletop.Account
import Tabletop.Collection

/-!
# Sessions

A session keeps formulas in named slots and in a collection, next to a table where they are rolled.
Its commands name slots; a command that finds a slot empty does nothing.
-/

namespace Tabletop

structure Session where
  slots : Std.HashMap String Formula := {}
  collection : Collection := .empty
  table : Table

inductive Command where
  | enter (slot text : String)
  | copy (slot target : String)
  /-- Replaces the formula in a slot by what its canonical text reads as. -/
  | renew (slot : String)
  | look (slot : String)
  | roll (slot : String)
  | rollMany (slot : String) (n : Nat)
  | compare (slot other : String)
  | insert (slot : String)
  | replace (slot : String)
  | contains (slot : String)
  /-- Asks for the member of the collection that equals the formula in a slot. -/
  | find (slot : String)
  | remove (slot : String)
  | members

inductive Answer where
  | formula (f : Formula)
  | rejected (r : Rejection)
  | text (s : String)
  | score (result : Score)
  | scores (results : List Score)
  | truth (b : Bool)
  | found (f? : Option Formula)
  | members (fs : List Formula)
  | emptySlot
  | drySupply

def Answer.ofReply : Collection.Reply → Answer
  | .truth b => .truth b
  | .found f? => .found f?

namespace Session

def start (supply : Supply) : Session :=
  { table := { supply } }

def store (s : Session) (slot : String) (f : Formula) : Session :=
  { s with slots := s.slots.insert slot f }

/-- Reads a text into a slot. A refused text leaves the slot as it is. -/
def enter (s : Session) (slot text : String) : Answer × Session :=
  let (outcome, table) := (Play.parse text).run s.table
  let s := { s with table }
  match outcome with
  | .ok f => (.formula f, s.store slot f)
  | .error r => (.rejected r, s)

def play {α : Type} (s : Session) (action : Play α) (answer : α → Answer) : Answer × Session :=
  let (outcome, table) := action.result s.table
  ((outcome.map answer).getD .drySupply, { s with table })

def withSlot (s : Session) (slot : String) (act : Formula → Answer × Session) : Answer × Session :=
  match s.slots[slot]? with
  | some f => act f
  | none => (.emptySlot, s)

/-- Does an operation on the collection with the formula in a slot. -/
def operate (s : Session) (slot : String) (op : Collection.Operation) : Answer × Session :=
  s.withSlot slot fun f =>
    let (reply, collection) := s.collection.perform f op
    (.ofReply reply, { s with collection })

def perform (s : Session) : Command → Answer × Session
  | .enter slot text => s.enter slot text
  | .copy slot target => s.withSlot slot fun f => (.text f.canonical, s.store target f)
  | .renew slot => s.withSlot slot fun f => s.enter slot f.canonical
  | .look slot => s.withSlot slot fun f => (.formula f, s)
  | .roll slot => s.withSlot slot fun f => s.play (Play.roll f) .score
  | .rollMany slot n => s.withSlot slot fun f => s.play ((Play.roll f).times n) .scores
  | .compare slot other =>
      s.withSlot slot fun f => s.withSlot other fun g => (.truth (f == g), s)
  | .insert slot => s.operate slot .insert
  | .replace slot => s.operate slot .replace
  | .contains slot => s.operate slot .contains
  | .find slot => s.operate slot .find
  | .remove slot => s.operate slot .remove
  | .members => (.members s.collection.toList, s)

def step (s : Session) (c : Command) : Account Answer × Session :=
  let (answer, after) := s.perform c
  (.between s.table after.table answer, after)

def run (s : Session) : List Command → List (Account Answer) × Session
  | [] => ([], s)
  | c :: cs =>
      let (account, after) := s.step c
      let (accounts, last) := after.run cs
      (account :: accounts, last)

end Session

end Tabletop
