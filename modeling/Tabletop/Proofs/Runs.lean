import Mathlib
import Tabletop.Attempt

/-!
# Runs of acts

The acts of a run are done one after another, each in the state that the acts before it have left.
So what an act comes to is told by its place in the run.
-/

namespace Tabletop.Runs

variable {σ α β : Type} (act : α → StateM σ β)

/-- The outcomes of a run of acts. -/
def outcomes (as : List α) (s : σ) : List β :=
  ((as.mapM act).run s).1

/-- The state that a run of acts leaves. -/
def after (as : List α) (s : σ) : σ :=
  ((as.mapM act).run s).2

variable {act}

@[simp] theorem outcomes_nil (s : σ) : outcomes act [] s = [] :=
  rfl

@[simp] theorem after_nil (s : σ) : after act [] s = s :=
  rfl

theorem outcomes_cons (a : α) (as : List α) (s : σ) :
    outcomes act (a :: as) s = ((act a).run s).1 :: outcomes act as ((act a).run s).2 := by
  simp only [outcomes, List.mapM_cons]
  rfl

theorem after_cons (a : α) (as : List α) (s : σ) :
    after act (a :: as) s = after act as ((act a).run s).2 := by
  simp only [after, List.mapM_cons]
  rfl

theorem length_outcomes (as : List α) (s : σ) : (outcomes act as s).length = as.length := by
  induction as generalizing s with
  | nil => simp
  | cons a as ih => simp [outcomes_cons, ih]

theorem getElem?_outcomes (as : List α) (s : σ) (i : Nat) :
    (outcomes act as s)[i]? = as[i]?.map fun a ↦ ((act a).run (after act (as.take i) s)).1 := by
  induction as generalizing s i with
  | nil => simp
  | cons a as ih =>
      cases i with
      | zero => simp [outcomes_cons]
      | succ i => simp [outcomes_cons, after_cons, ih]

end Tabletop.Runs
