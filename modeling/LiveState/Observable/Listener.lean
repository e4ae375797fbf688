import LiveState.Observable.Place

/-!
# Listeners

The callbacks of observables.  A *script* has a name and rules; each rule has a condition on the
value it receives, a body of steps, and a number of times that it may still fire.  A *keeper*
copies every value to somewhere else, and may be told to let the first one go.

What the steps of a rule are is left open (`σ`), so that scripts can drive any language of steps.
-/

namespace LiveState

/-- A rule of a script: when a value `applies`, and the rule may still fire, run its body. -/
structure Rule (σ α : Type) where
  applies : α → Bool
  remaining : Nat
  body : List σ

namespace Rule

variable {σ α : Type}

def spend (r : Rule σ α) : Rule σ α := { r with remaining := r.remaining - 1 }

end Rule

/-- What an observable calls. -/
inductive Listener (σ α : Type) where
  | script (name : String) (rules : List (Rule σ α))
  | keeper (skipNext : Bool)

namespace Listener

variable {σ α : Type}

def rules : Listener σ α → List (Rule σ α)
  | .script _ rules => rules
  | .keeper _ => []

/-- The listener after rule number `i` has fired once. -/
def spend (i : Nat) : Listener σ α → Listener σ α
  | .script name rules => .script name (rules.modify i Rule.spend)
  | l => l

def remaining (l : Listener σ α) (i : Nat) : Nat := ((l.rules[i]?).map (·.remaining)).getD 0

variable {W : Type} (p : Place W α (Listener σ α))

/-- Use up one firing of rule number `i` of subscriber `id`.  The result says whether one was
    left. -/
def tryFire (id i : Nat) : Act W Bool := do
  let left ← p.look fun o => ((o.callback? id).map (·.remaining i)).getD 0
  if left = 0 then
    return false
  else
    p.change (·.adjustCallback id (·.spend i))
    return true

/-- Go through the rules, the first of them having number `i`. -/
def obey (act : σ → Act W Unit) (id : Nat) (v : α) : Nat → List (Rule σ α) → Act W Unit
  | _, [] => pure ()
  | i, r :: rs => do
    if r.applies v then
      if ← tryFire p id i then r.body.forM act else pure ()
    else
      pure ()
    obey act id v (i + 1) rs

/-- Call a listener.  `act` runs one step on behalf of a script of the given name, and `copy` is
    what a keeper does with a value. -/
def hear (act : String → σ → Act W Unit) (copy : α → Act W Unit) (id : Nat) :
    Listener σ α → α → Act W Unit
  | .keeper true, _ => p.change (·.adjustCallback id fun _ => .keeper false)
  | .keeper false, v => copy v
  | .script name rules, v => do
    p.jot (.heard name v)
    obey p (act name) id v 0 rules

end Listener

end LiveState
