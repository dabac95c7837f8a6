import Tabletop.Formula.Basic

/-!
# The journal

A table keeps a journal of every text that it refused and of every roll that it completed.
-/

namespace Tabletop

inductive Entry where
  | rejected (text reason : String)
  | rolled (dice : String) (sum result : Score)
  deriving DecidableEq, Repr

/-- How much notice an entry asks for. -/
inductive Level where
  | debug
  | trace
  deriving DecidableEq, Repr

def Level.name : Level → String
  | .debug => "DEBUG"
  | .trace => "TRACE"

namespace Entry

def level : Entry → Level
  | .rejected .. => .debug
  | .rolled .. => .trace

def message : Entry → String
  | .rejected .. => "rejected dice notation"
  | .rolled .. => "rolled"

end Entry

end Tabletop
