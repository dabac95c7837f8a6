import Tabletop.Play

/-!
# Accounts of single acts

An account tells what one act at a table came to: its outcome, how many words the table has used by
then, and the journal entries that the act made.
-/

namespace Tabletop

structure Account (α : Type) where
  outcome : α
  delivered : Nat
  entries : List Entry

/-- The account of an act that led from one table to another. -/
def Account.between {α : Type} (before after : Table) (outcome : α) : Account α where
  outcome := outcome
  delivered := after.supply.delivered
  entries := after.journal.toList.drop before.journal.size

def Play.account {α : Type} (act : StateM Table α) : StateM Table (Account α) :=
  fun table =>
    let (outcome, after) := act.run table
    (.between table after outcome, after)

end Tabletop
