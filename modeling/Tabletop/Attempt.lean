/-!
# Attempts

Actions on a state that may fail. A failure ends the action, and what was done by then stays done.
`result` is the view of an attempt as a function of the state.
-/

namespace Tabletop

abbrev Attempt (σ : Type) := OptionT (StateM σ)

namespace Attempt

variable {σ α β : Type}

def ofResult (f : σ → Option α × σ) : Attempt σ α :=
  OptionT.mk f

/-- The outcome of an attempt, none where it failed, and the state it leaves. -/
def result (x : Attempt σ α) (s : σ) : Option α × σ :=
  x.run.run s

/-- Succeeds `n` times or fails as a whole. -/
def times (x : Attempt σ α) : Nat → Attempt σ (List α)
  | 0 => pure []
  | n + 1 => do
      let a ← x
      let rest ← times x n
      pure (a :: rest)

/-- Keeps the outcomes up to the first failure, and no more than `n`. -/
def upTo (x : Attempt σ α) : Nat → StateM σ (List α)
  | 0 => pure []
  | n + 1 => do
      match ← x.run with
      | none => pure []
      | some a =>
          let rest ← upTo x n
          pure (a :: rest)

@[simp] theorem result_ofResult (f : σ → Option α × σ) (s : σ) : (ofResult f).result s = f s :=
  rfl

@[simp] theorem result_pure (a : α) (s : σ) : result (pure a) s = (some a, s) :=
  rfl

theorem result_bind (x : Attempt σ α) (next : α → Attempt σ β) (s : σ) :
    result (x >>= next) s =
      match x.result s with
      | (none, t) => (none, t)
      | (some a, t) => (next a).result t := by
  change StateT.run (OptionT.run (x >>= next)) s = _
  simp only [OptionT.run_bind, Option.elimM, StateT.run_bind, result]
  rcases StateT.run (OptionT.run x) s with ⟨_ | a, t⟩ <;> rfl

@[simp] theorem result_lift (x : StateM σ α) (s : σ) :
    result (liftM x) s = (some (x.run s).1, (x.run s).2) :=
  rfl

@[simp] theorem result_times_zero (x : Attempt σ α) (s : σ) :
    (x.times 0).result s = (some [], s) :=
  rfl

theorem result_times_succ (x : Attempt σ α) (n : Nat) (s : σ) :
    (x.times (n + 1)).result s =
      match x.result s with
      | (none, t) => (none, t)
      | (some a, t) =>
          match (x.times n).result t with
          | (none, u) => (none, u)
          | (some rest, u) => (some (a :: rest), u) := by
  rw [times, result_bind]
  rcases x.result s with ⟨_ | a, t⟩
  · rfl
  · simp only [result_bind]
    rcases (x.times n).result t with ⟨_ | rest, u⟩ <;> rfl

@[simp] theorem run_upTo_zero (x : Attempt σ α) (s : σ) : (x.upTo 0).run s = ([], s) :=
  rfl

theorem run_upTo_succ (x : Attempt σ α) (n : Nat) (s : σ) :
    (x.upTo (n + 1)).run s =
      match x.result s with
      | (none, t) => ([], t)
      | (some a, t) => (a :: ((x.upTo n).run t).1, ((x.upTo n).run t).2) := by
  rw [upTo, StateT.run_bind, result]
  rcases StateT.run (OptionT.run x) s with ⟨_ | a, t⟩ <;> rfl

end Attempt

end Tabletop
