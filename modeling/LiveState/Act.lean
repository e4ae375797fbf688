/-!
# Actions

An action is a computation over a world that may stop early.  Whatever it changed before it
stopped stays changed: the final world is always there, beside the result or the reason for
stopping.  Nothing is rolled back, which is what makes a half-finished operation observable.
-/

namespace LiveState

/-- Why an action stopped before its end. -/
inductive Interrupt where
  /-- A fault raised on purpose, or a change of a value that is borrowed. -/
  | panic
  /-- The step budget was used up.  Budgets are computed so that this never happens. -/
  | exhausted
  deriving DecidableEq, Repr

/-- A computation over a world of type `W` that either ends with a value or is interrupted. -/
abbrev Act (W : Type) : Type → Type := ExceptT Interrupt (StateM W)

namespace Act

variable {W α : Type}

def perform (m : Act W α) (w : W) : Except Interrupt α × W := m.run.run w

def panic : Act W α := throw .panic

def view (f : W → α) : Act W α := do return f (← get)

/-- Run `m`; if it panics, run `rescue` instead of passing the panic on.  Exhaustion is not a
    fault of `m` and passes through. -/
def rescuing (m rescue : Act W Unit) : Act W Unit :=
  tryCatch m fun
    | .panic => rescue
    | .exhausted => throw .exhausted

/-- Run `m` between `before` and `after`.  `after` is applied however `m` ends. -/
def bracket (before after : W → W) (m : Act W α) : Act W α :=
  ExceptT.mk do
    modify before
    let ending ← m.run
    modify after
    return ending

/-! ## How actions end -/

@[simp] theorem perform_pure (a : α) (w : W) : (pure a : Act W α).perform w = (.ok a, w) := rfl

@[simp] theorem perform_throw (i : Interrupt) (w : W) :
    (throw i : Act W α).perform w = (.error i, w) := rfl

@[simp] theorem perform_panic (w : W) : (panic : Act W α).perform w = (.error .panic, w) := rfl

@[simp] theorem perform_view (f : W → α) (w : W) : (view f).perform w = (.ok (f w), w) := rfl

@[simp] theorem perform_modify (f : W → W) (w : W) :
    (modify f : Act W Unit).perform w = (.ok (), f w) := rfl

/-- What comes after an action that was interrupted does not happen, and what the action has
    changed stays. -/
theorem perform_bind {β : Type} (m : Act W α) (f : α → Act W β) (w : W) :
    (m >>= f).perform w =
      match m.perform w with
      | (.ok a, w') => (f a).perform w'
      | (.error i, w') => (.error i, w') := by
  simp only [perform, ExceptT.run_bind, StateT.run_bind]
  rcases m.run.run w with ⟨_ | _, _⟩ <;> rfl

theorem perform_rescuing (m rescue : Act W Unit) (w : W) :
    (rescuing m rescue).perform w =
      match m.perform w with
      | (.error .panic, w') => rescue.perform w'
      | ending => ending := by
  simp only [rescuing, perform, tryCatch, tryCatchThe, MonadExceptOf.tryCatch, ExceptT.tryCatch,
    ExceptT.run, ExceptT.mk, StateT.run_bind]
  rcases StateT.run m w with ⟨⟨_ | _⟩ | _, _⟩ <;> rfl

theorem perform_bracket (before after : W → W) (m : Act W α) (w : W) :
    (bracket before after m).perform w =
      ((m.perform (before w)).1, after (m.perform (before w)).2) := rfl

end Act

end LiveState
