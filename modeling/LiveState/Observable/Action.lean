import LiveState.Observable.Listener
import LiveState.Scenario

/-!
# Actions on an observable

The things a scenario may do to one observable, wherever it lives.
-/

namespace LiveState.Observable

/-- An action on an observable of type `α`; `σ` is the type of the steps that it may contain. -/
inductive Action (σ α : Type) where
  | get
  | version
  | describe (pretty : Bool)
  | set (value : α)
  /-- Change a copy of the value in place; the steps run first, and then `f` is applied. -/
  | update (f : α → α) (faulty : Bool) (inner : List σ)
  /-- Compute a new value from the old one, in the same order. -/
  | replaceWith (f : α → α) (faulty : Bool) (inner : List σ)
  | borrow (inner : List σ)
  | subscribe (name : String) (rules : List (Rule σ α))

inductive Answer (α : Type) where
  | done
  | value (v : α)
  | version (n : Nat)
  | text (s : String)

namespace Action

variable {W σ α : Type} [Text.Describe α]

/-- Perform an action at a place.  `copy` is what a keeper does with a value, and `enrol` keeps a
    new subscription under its name. -/
def perform (p : Place W α (Listener σ α)) (nested : Nested W σ) (copy : α → Act W Unit)
    (enrol : String → Nat → W → W) : Action σ α → Act W (Answer α)
  | .get => .value <$> p.look (·.value)
  | .version => .version <$> p.look (·.version)
  | .describe pretty => do
    let d ← p.look Text.describe
    return .text (d.render pretty)
  | .set v => do
    p.set (Listener.hear p nested.act copy) v
    return .done
  | .update f faulty inner | .replaceWith f faulty inner => do
    p.update (Listener.hear p nested.act copy) f faulty (inner.forM nested.inside)
    return .done
  | .borrow inner => .value <$> p.borrowing (inner.forM nested.inside)
  | .subscribe name rules => do
    let id ← p.subscribe (Listener.hear p nested.act copy) (.script name rules)
    modify (enrol name id)
    return .done

end Action

end LiveState.Observable
