import LiveState.Observable.Action
import LiveState.Subscription

/-!
# Scenarios on observables

A world of observables of one type, reached through handles.  Cloning a handle gives another
handle of the same observable; a dropped handle reaches nothing any more, while the observable
goes on existing for whoever still uses it.

The budget of a run is the weight of its steps: 1 for each step, plus the weight of the steps
inside it, plus for every rule that it subscribes the weight of the rule's body as often as the
rule may fire.
-/

namespace LiveState.Observable.Scenario

inductive Step (α : Type) where
  | subscription (name : String) (request : Subscription.Request)
  | act (handle : Nat) (action : Action (Step α) α)
  | clone (handle : Nat)
  | drop (handle : Nat)
  | panic (handle : Nat)

inductive Reply (α : Type) where
  | subscription (answer : Subscription.Answer)
  | observable (answer : Answer α)
  | handle (number : Nat)
  | dropped
  | noHandle

structure World (n : Nat) (α : Type) where
  cells : Vector (Observable α (Listener (Step α) α)) n
  /-- The handles in the order in which they were made; a dropped one is `none`. -/
  handles : Array (Option (Fin n))
  /-- For each name an observable and the number of one of its subscribers. -/
  subscriptions : OrderedMap String (Fin n × Nat)
  journal : Array (Event (Step α) (Reply α) (Fin n × Occurrence α))

variable {n : Nat} {α : Type}

def World.start (values : Vector α n) : World n α where
  cells := values.map Observable.new
  handles := ((List.finRange n).map some).toArray
  subscriptions := .empty
  journal := #[]

def World.record (e : Event (Step α) (Reply α) (Fin n × Occurrence α)) (w : World n α) :
    World n α :=
  { w with journal := w.journal.push e }

def place (i : Fin n) : Place (World n α) α (Listener (Step α) α) where
  cell w := w.cells[i]
  adjust f w := { w with cells := w.cells.set i (f w.cells[i]) }
  note o w := w.record (.happened (i, o))

def World.enrol (i : Fin n) (name : String) (id : Nat) (w : World n α) : World n α :=
  { w with subscriptions := w.subscriptions.insert name (i, id) }

def World.target? (w : World n α) (handle : Nat) : Option (Fin n) := (w.handles[handle]?).join

def withHandle (handle : Nat) (f : Fin n → Act (World n α) (Reply α)) :
    Act (World n α) (Reply α) := do
  match ← Act.view (·.target? handle) with
  | none => return .noHandle
  | some i => f i

def perform [Text.Describe α] (nested : Nested (World n α) (Step α)) :
    Step α → Act (World n α) (Reply α)
  | .subscription name request => do
    match ← Act.view (·.subscriptions.get? name) with
    | none => return .subscription .missing
    | some (i, id) =>
      .subscription <$> request.perform (place i) id fun w =>
        { w with subscriptions := w.subscriptions.erase name }
  | .act handle action => withHandle handle fun i =>
    .observable <$> action.perform (place i) nested (fun _ => pure ()) (World.enrol i)
  | .clone handle => withHandle handle fun i => do
    let number ← Act.view (·.handles.size)
    modify fun w => { w with handles := w.handles.push (some i) }
    return .handle number
  | .drop handle => withHandle handle fun _ => do
    modify fun w => { w with handles := w.handles.setIfInBounds handle none }
    return .dropped
  | .panic handle => withHandle handle fun _ => Act.panic

def language (n : Nat) (α : Type) [Text.Describe α] :
    Language (World n α) (Step α) (Reply α) (Fin n × Occurrence α) where
  journal := World.journal
  record := World.record
  perform := perform

/-! ## Weights -/

mutual

/-- How many steps a step may set off, itself included. -/
def Step.weight : Step α → Nat
  | .act _ action => 1 + actionWeight action
  | .subscription _ _ | .clone _ | .drop _ | .panic _ => 1

def actionWeight : Action (Step α) α → Nat
  | .update _ _ inner | .replaceWith _ _ inner | .borrow inner => stepsWeight inner
  | .subscribe _ rules => rulesWeight rules
  | .get | .version | .describe _ | .set _ => 0

def stepsWeight : List (Step α) → Nat
  | [] => 0
  | s :: rest => s.weight + stepsWeight rest

def rulesWeight : List (Rule (Step α) α) → Nat
  | [] => 0
  | r :: rest => ruleWeight r + rulesWeight rest

/-- A rule may run its body as often as it may fire. -/
def ruleWeight : Rule (Step α) α → Nat
  | ⟨_, remaining, body⟩ => remaining * stepsWeight body

end

def run [Text.Describe α] (values : Vector α n) (steps : List (Step α)) :
    List (Language.Outcome (Step α) (Reply α) (Fin n × Occurrence α)) × World n α :=
  (language n α).run (stepsWeight steps) steps (World.start values)

end LiveState.Observable.Scenario
