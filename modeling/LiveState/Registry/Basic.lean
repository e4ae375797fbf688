import LiveState.Notice
import LiveState.Observable.Action

/-!
# Registries

A registry makes handles from a catalog and keeps them under their kinds.  The mapping of kinds
to handles is an observable, and every change of it is announced, also the removal of a kind that
was not there.

Making a handle may run steps, and so may announcing a change; both may change the mapping in
between.  The mapping is read only after the handle is made, so that nothing gets lost.
-/

namespace LiveState

/-- The handles of the mounted kinds, in the order in which the kinds were mounted. -/
abbrev Resolved (η : Type) := OrderedMap String η

instance {η : Type} [Text.Describe η] : Text.Describe (Resolved η) where
  describe m := .map (m.entries.map fun e => (.text e.1, Text.describe e.2))

instance {η : Type} [Viewed η] : Viewed (Resolved η) where
  view m := .list (m.entries.map fun e => .list [.text e.1, view e.2])

/-- A registry with handles of type `η`; the scripts of its factories and subscribers consist of
    steps of type `σ`. -/
structure Registry (σ η : Type) where
  catalog : Registry.Catalog σ η
  /-- How many handles have been asked of the catalog's factories. -/
  calls : Nat
  resolved : Observable (Resolved η) (Listener σ (Resolved η))

namespace Registry

variable {σ η : Type}

def new (catalog : Catalog σ η) : Registry σ η := ⟨catalog, 0, .new .empty⟩

open Text in
instance [Describe η] : Describe (Registry σ η) where
  describe r := .record "CapabilityRegistry"
    [("catalog", r.catalog.description), ("resolved", describe r.resolved)]

inductive Incident (η : Type) where
  | resolved (o : Occurrence (Resolved η))
  /-- The factory of a kind was called; the number counts the calls of all factories. -/
  | built (key : String) (number : Nat)
  | notice (n : Notice)

/-- What a factory does in the call with the given number before it makes the handle. -/
def Factory.prepare {W : Type} (f : Factory σ η) (nested : Nested W σ) (number : Nat) :
    Act W Unit := do
  if number ∈ f.panicsAt then Act.panic else pure ()
  (f.stepsAt number).forM nested.inside

/-- How a world of type `W` holds a registry, and where it notes what happens to it. -/
structure Site (W σ η : Type) where
  registry : W → Registry σ η
  adjust : (Registry σ η → Registry σ η) → W → W
  note : Incident η → W → W

namespace Site

variable {W : Type} (s : Site W σ η)

/-- The place of the mapping. -/
def resolved : Place W (Resolved η) (Listener σ (Resolved η)) where
  cell w := (s.registry w).resolved
  adjust f := s.adjust fun r => { r with resolved := f r.resolved }
  note o := s.note (.resolved o)

def look {β : Type} (f : Registry σ η → β) : Act W β := Act.view fun w => f (s.registry w)

def jot (i : Incident η) : Act W Unit := modify (s.note i)

def call (nested : Nested W σ) :
    Nat → Listener σ (Resolved η) → Resolved η → Act W Unit :=
  Listener.hear s.resolved nested.act fun _ => pure ()

/-- Make a handle of a kind. -/
def build (nested : Nested W σ) (key : String) (factory : Factory σ η) : Act W η := do
  modify (s.adjust fun r => { r with calls := r.calls + 1 })
  let number ← s.look (·.calls)
  s.jot (.built key number)
  factory.prepare nested number
  return factory.make number

/-- Give notice and set the mapping to `f` of what it is then. -/
def alter (nested : Nested W σ) (n : Notice) (f : Resolved η → Resolved η) : Act W Unit := do
  s.jot (.notice n)
  s.resolved.update (s.call nested) f false (pure ())

/-- Make a handle of the kind `key` and mount it.  A kind that is mounted already keeps its place
    and gets the new handle. -/
def add (nested : Nested W σ) (key : String) : Act W (Except Refusal Unit) := do
  match ← s.look (·.catalog.get? key) with
  | none =>
    s.jot (.notice (.rejectedUnknown key))
    return .error (.unknownCapability key)
  | some factory =>
    let handle ← s.build nested key factory
    s.alter nested (.addingCapability key) (·.insert key handle)
    return .ok ()

/-- Take the kind `key` out, if it is mounted, and announce it in any case. -/
def remove (nested : Nested W σ) (key : String) : Act W Unit :=
  s.alter nested (.removingCapability key) (·.erase key)

/-- Mount a panel of a known kind; a catalog that lacks it is worth a warning only. -/
def addKind (nested : Nested W σ) (kind : PanelKind) : Act W Unit := do
  match ← s.add nested kind.name with
  | .ok () => pure ()
  | .error e => s.jot (.notice (.kindNotInCatalog kind e))

end Site

/-- An action on a registry; `σ` is the type of the steps that it may contain. -/
inductive Action (σ η : Type) where
  | add (key : String)
  | remove (key : String)
  | addKind (kind : PanelKind)
  | removeKind (kind : PanelKind)
  | list
  | get (key : String)
  | contains (key : String)
  | size
  | isEmpty
  | kinds
  | knows (key : String)
  | describeCatalog (pretty : Bool)
  | describe (pretty : Bool)
  /-- Act on the mapping itself. -/
  | resolved (action : Observable.Action σ (Resolved η))

/-- The answer to an action on a registry. -/
inductive Answer (η : Type) where
  | done
  | refused (r : Refusal)
  | entries (m : Resolved η)
  | handle (h : Option η)
  | flag (b : Bool)
  | count (n : Nat)
  | kinds (ks : List String)
  | text (s : String)
  | resolved (a : Observable.Answer (Resolved η))

/-- Perform an action on the registry at a site.  `enrol` keeps a new subscription under its
    name. -/
def Action.perform {W : Type} [Text.Describe η] (s : Site W σ η) (nested : Nested W σ)
    (enrol : String → Nat → W → W) : Action σ η → Act W (Answer η)
  | .add key => do
    match ← s.add nested key with
    | .ok () => return .done
    | .error e => return .refused e
  | .remove key => do
    s.remove nested key
    return .done
  | .addKind kind => do
    s.addKind nested kind
    return .done
  | .removeKind kind => do
    s.remove nested kind.name
    return .done
  | .list => .entries <$> s.look (·.resolved.value)
  | .get key => .handle <$> s.look (·.resolved.value.get? key)
  | .contains key => .flag <$> s.look (·.resolved.value.contains key)
  | .size => .count <$> s.look (·.resolved.value.size)
  | .isEmpty => .flag <$> s.look (·.resolved.value.size == 0)
  | .kinds => .kinds <$> s.look (·.catalog.keys)
  | .knows key => .flag <$> s.look (·.catalog.contains key)
  | .describeCatalog pretty => do
    let d ← s.look (·.catalog.description)
    return .text (d.render pretty)
  | .describe pretty => do
    let d ← s.look Text.describe
    return .text (d.render pretty)
  | .resolved action =>
    .resolved <$> action.perform s.resolved nested (fun _ => pure ()) enrol

end Registry

end LiveState
