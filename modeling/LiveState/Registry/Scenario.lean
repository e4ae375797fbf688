import LiveState.Registry.Basic
import LiveState.Subscription

/-!
# Scenarios on a registry

A world with one registry and subscriptions to its mapping.

The budget of a run is the weight of its steps, plus the weight of the steps that the factories
of the catalog may run: no two calls have the same number, so that each script runs once at most.
-/

namespace LiveState.Registry.Scenario

inductive Step (η : Type) where
  | subscription (name : String) (request : Subscription.Request)
  | act (action : Action (Step η) η)
  | panic

inductive Reply (η : Type) where
  | subscription (answer : Subscription.Answer)
  | registry (answer : Answer η)

structure World (η : Type) where
  registry : Registry (Step η) η
  /-- For each name the number of a subscriber of the mapping. -/
  subscriptions : OrderedMap String Nat
  journal : Array (Event (Step η) (Reply η) (Incident η))

variable {η : Type}

def World.start (catalog : Catalog (Step η) η) : World η := ⟨.new catalog, .empty, #[]⟩

def World.record (e : Event (Step η) (Reply η) (Incident η)) (w : World η) : World η :=
  { w with journal := w.journal.push e }

def site : Site (World η) (Step η) η where
  registry := World.registry
  adjust f w := { w with registry := f w.registry }
  note i w := w.record (.happened i)

def perform [Text.Describe η] (nested : Nested (World η) (Step η)) :
    Step η → Act (World η) (Reply η)
  | .subscription name request => do
    match ← Act.view (·.subscriptions.get? name) with
    | none => return .subscription .missing
    | some id =>
      .subscription <$> request.perform site.resolved id fun w =>
        { w with subscriptions := w.subscriptions.erase name }
  | .act action =>
    .registry <$> action.perform site nested fun name id w =>
      { w with subscriptions := w.subscriptions.insert name id }
  | .panic => Act.panic

def language (η : Type) [Text.Describe η] :
    Language (World η) (Step η) (Reply η) (Incident η) where
  journal := World.journal
  record := World.record
  perform := perform

/-! ## Weights -/

mutual

/-- How many steps a step may set off, itself included. -/
def Step.weight : Step η → Nat
  | .act (.resolved action) => 1 + resolvedWeight action
  | .act _ | .subscription _ _ | .panic => 1

def resolvedWeight : Observable.Action (Step η) (Resolved η) → Nat
  | .update _ _ inner | .replaceWith _ _ inner | .borrow inner => stepsWeight inner
  | .subscribe _ rules => rulesWeight rules
  | .get | .version | .describe _ | .set _ => 0

def stepsWeight : List (Step η) → Nat
  | [] => 0
  | s :: rest => s.weight + stepsWeight rest

def rulesWeight : List (Rule (Step η) (Resolved η)) → Nat
  | [] => 0
  | r :: rest => ruleWeight r + rulesWeight rest

/-- A rule may run its body as often as it may fire. -/
def ruleWeight : Rule (Step η) (Resolved η) → Nat
  | ⟨_, remaining, body⟩ => remaining * stepsWeight body

end

/-- How many steps the factories of a catalog may set off. -/
def catalogWeight (c : Catalog (Step η) η) : Nat :=
  stepsWeight (c.entries.flatMap (·.2.steps))

def run [Text.Describe η] (catalog : Catalog (Step η) η) (steps : List (Step η)) :
    List (Language.Outcome (Step η) (Reply η) (Incident η)) × World η :=
  (language η).run (catalogWeight catalog + stepsWeight steps) steps (World.start catalog)

end LiveState.Registry.Scenario
