import LiveState.Act

/-!
# Scenarios

A scenario is a list of steps performed on a world one after another, with a journal of what
happened.  Steps may set off further steps: those of a script that is called, and those that run
inside another step.  This module ties that knot for any language of steps: a language says what
one step does, given how to run the steps that it sets off.

The nesting is bounded by a budget.  A step set off by another one gets a smaller budget, so
that the recursion ends whatever the language; a language chooses budgets that are never used up.
-/

namespace LiveState

/-- One line of a journal.  Steps are of type `σ`, their answers of type `ρ`, and `ε` is what
    else may happen in a world. -/
inductive Event (σ ρ ε : Type) where
  | began (step : σ)
  /-- A script of this name has finished one of its steps. -/
  | did (name : String) (step : σ) (reply : ρ)
  /-- A step that ran inside another one has finished. -/
  | inner (step : σ) (reply : ρ)
  | happened (what : ε)

/-- How a step runs the steps that it sets off. -/
structure Nested (W σ : Type) where
  act : String → σ → Act W Unit
  inside : σ → Act W Unit

/-- A language of steps over worlds of type `W`. -/
structure Language (W σ ρ ε : Type) where
  journal : W → Array (Event σ ρ ε)
  record : Event σ ρ ε → W → W
  perform : Nested W σ → σ → Act W ρ

namespace Language

variable {W σ ρ ε : Type} (L : Language W σ ρ ε)

def nested (exec : σ → Act W ρ) : Nested W σ where
  act name s := do
    let r ← exec s
    modify (L.record (.did name s r))
  inside s := do
    let r ← exec s
    modify (L.record (.inner s r))

def exec : Nat → σ → Act W ρ
  | 0, _ => throw .exhausted
  | budget + 1, s => do
    modify (L.record (.began s))
    L.perform (L.nested (exec budget)) s

/-- How a step ended, and the part of the journal that was written meanwhile. -/
structure Outcome (σ ρ ε : Type) where
  ending : Except Interrupt ρ
  events : List (Event σ ρ ε)

/-- Run one step and cut out its part of the journal. -/
def runStep (budget : Nat) (s : σ) (w : W) : Outcome σ ρ ε × W :=
  let start := (L.journal w).size
  let (ending, w') := (L.exec budget s).perform w
  (⟨ending, ((L.journal w').extract start).toList⟩, w')

/-- Run steps one after another; a step that is interrupted does not keep the next from
    running. -/
def run (budget : Nat) : List σ → W → List (Outcome σ ρ ε) × W
  | [], w => ([], w)
  | s :: rest, w =>
    let (o, w') := L.runStep budget s w
    let (os, w'') := run budget rest w'
    (o :: os, w'')

end Language

end LiveState
