import Tabletop.Formula.Basic
import Std.Data.HashSet

/-!
# Collections of formulas

A collection holds no two equal formulas. Which of several equal formulas it holds, with its
adjustment as written, depends on how they came in.
-/

namespace Tabletop

namespace Formula

/-- Formulas are listed by the number of dice, the sides and the adjustment as written: none first,
then the additions and then the subtractions by their amounts. -/
def rank (f : Formula) : List Nat :=
  f.count.toNat :: f.sides.toNat ::
    match f.adjustment with
    | none => [0, 0]
    | some ⟨.plus, amount⟩ => [1, amount.toNat]
    | some ⟨.minus, amount⟩ => [2, amount.toNat]

/-- Ranks are compared number by number. -/
def precedes (f g : Formula) : Bool :=
  !g.rank.lex f.rank fun m n => decide (m < n)

end Formula

structure Collection where
  formulas : Std.HashSet Formula := {}

namespace Collection

def empty : Collection := {}

def contains (c : Collection) (f : Formula) : Bool :=
  c.formulas.contains f

/-- The member that is equal to `f`, as it came in. -/
def get? (c : Collection) (f : Formula) : Option Formula :=
  c.formulas.get? f

/-- An equal member stays in place of `f`. -/
def insert (c : Collection) (f : Formula) : Collection :=
  { formulas := c.formulas.insert f }

def erase (c : Collection) (f : Formula) : Collection :=
  { formulas := c.formulas.erase f }

/-- An equal member gives way to `f`. -/
def replace (c : Collection) (f : Formula) : Collection :=
  (c.erase f).insert f

def size (c : Collection) : Nat :=
  c.formulas.size

/-- The members, by rank. -/
def toList (c : Collection) : List Formula :=
  c.formulas.toList.mergeSort Formula.precedes

/-! ## Operations -/

/-- What may be done to a collection with a formula. -/
inductive Operation where
  | insert
  | replace
  | contains
  | find
  | remove

inductive Reply where
  | truth (b : Bool)
  | found (f? : Option Formula)

/-- An insertion replies whether the formula is new, a removal whether it was there. -/
def perform (c : Collection) (f : Formula) : Operation → Reply × Collection
  | .insert => (.truth !(c.contains f), c.insert f)
  | .replace => (.found (c.get? f), c.replace f)
  | .contains => (.truth (c.contains f), c)
  | .find => (.found (c.get? f), c)
  | .remove => (.truth (c.contains f), c.erase f)

/-! ## What a collection gives back -/

@[simp] theorem get?_empty (f : Formula) : empty.get? f = none :=
  Std.HashSet.get?_empty

theorem contains_eq_isSome_get? (c : Collection) (f : Formula) :
    c.contains f = (c.get? f).isSome :=
  Std.HashSet.contains_eq_isSome_get?

theorem get?_insert (c : Collection) (f g : Formula) :
    (c.insert f).get? g = if (f == g) = true ∧ c.contains f = false then some f else c.get? g := by
  simp [get?, insert, contains, Std.HashSet.get?_insert]

theorem get?_erase (c : Collection) (f g : Formula) :
    (c.erase f).get? g = if f == g then none else c.get? g :=
  Std.HashSet.get?_erase

theorem get?_replace (c : Collection) (f g : Formula) :
    (c.replace f).get? g = if f == g then some f else c.get? g := by
  have hgone : (c.erase f).contains f = false := by
    simp [contains_eq_isSome_get?, get?_erase]
  rw [replace, get?_insert, get?_erase]
  by_cases h : (f == g) = true <;> simp [h, hgone]

end Collection

end Tabletop
