import LiveState.Registry.Scenario

/-! # The ledger of a registry

A journal tells which changes of the mapping were made and in which order: a change is made by the
line that commits it, and the line right before says whether a kind was mounted or taken out by
it.  Read in this way, a journal gives a list of operations, and the list a mapping.

It also tells what factories were called for.  A call is under way from its own line on, until the
kind is announced for which it was made, or until it is broken off.  What a factory mounts itself
lies in between, so that the calls under way form a stack.
-/

namespace LiveState.Registry.Scenario

variable {η : Type}

/-! ## Lines

Four kinds of lines matter here: a kind is going to be mounted, or to be taken out; a change with a
number has set the mapping; the factory of a kind is called, by the call with a number. -/

abbrev Line (η : Type) := Event (Step η) (Reply η) (Incident η)

namespace Line

def adding (key : String) : Line η := .happened (.notice (.addingCapability key))

def removing (key : String) : Line η := .happened (.notice (.removingCapability key))

def committed (number : Nat) (m : Resolved η) : Line η :=
  .happened (.resolved (.committed number m))

def built (key : String) (number : Nat) : Line η := .happened (.built key number)

end Line

/-! ## Operations -/

inductive Operation (η : Type) where
  | put (key : String) (handle : η)
  | drop (key : String)
  | replace (m : Resolved η)

def Operation.apply : Operation η → Resolved η → Resolved η
  | .put key handle, m => m.insert key handle
  | .drop key, m => m.erase key
  | .replace m, _ => m

/-- With `handle` under `key`, in the place of `key` or at the end, `m` is `m'`. -/
structure Puts (key : String) (handle : η) (m m' : Resolved η) : Prop where
  keys_eq : m'.keys = if key ∈ m.keys then m.keys else m.keys ++ [key]
  get?_eq : ∀ k, m'.get? k = if k = key then some handle else m.get? k

/-- Without `key`, and else in the same order, `m` is `m'`. -/
structure Drops (key : String) (m m' : Resolved η) : Prop where
  keys_eq : m'.keys = m.keys.filter fun k => !decide (k = key)
  get?_eq : ∀ k, m'.get? k = if k = key then none else m.get? k

theorem Operation.apply_put (key : String) (handle : η) (m : Resolved η) :
    Puts key handle m ((put key handle).apply m) where
  keys_eq := OrderedMap.keys_insert m key handle
  get?_eq k := by
    by_cases same : k = key
    · subst same
      simp [apply]
    · rw [if_neg same]
      exact OrderedMap.get?_insert_of_ne same m handle

theorem Operation.apply_drop (key : String) (m : Resolved η) :
    Drops key m ((drop key).apply m) where
  keys_eq := OrderedMap.keys_erase m key
  get?_eq k := by
    by_cases same : k = key
    · subst same
      simp [apply]
    · rw [if_neg same]
      exact OrderedMap.get?_erase_of_ne same m

/-- The mapping that operations build up from nothing, the first of them coming first. -/
def replay (ops : List (Operation η)) : Resolved η := ops.foldl (fun m o => o.apply m) .empty

@[simp] theorem replay_snoc (ops : List (Operation η)) (o : Operation η) :
    replay (ops ++ [o]) = o.apply (replay ops) := by
  simp [replay]

inductive Announcement where
  | adding (key : String)
  | removing (key : String)

/-- The operation by which the mapping became `m`, after what was announced of it. -/
def Operation.leadingTo (m : Resolved η) : Option Announcement → Operation η
  | some (.adding key) =>
    match m.get? key with
    | some handle => .put key handle
    | none => .replace m
  | some (.removing key) => .drop key
  | none => .replace m

@[simp] theorem Operation.leadingTo_insert (m : Resolved η) (key : String) (handle : η) :
    leadingTo (m.insert key handle) (some (.adding key)) = .put key handle := by
  simp [leadingTo]

/-- What the lines of a journal tell about the mapping: the operations in their order, and what the
    last line announces. -/
structure Ledger (η : Type) where
  operations : List (Operation η)
  announced : Option Announcement

namespace Ledger

def enter (l : Ledger η) : Line η → Ledger η
  | .happened (.notice (.addingCapability key)) => ⟨l.operations, some (.adding key)⟩
  | .happened (.notice (.removingCapability key)) => ⟨l.operations, some (.removing key)⟩
  | .happened (.resolved (.committed _ m)) => ⟨l.operations ++ [.leadingTo m l.announced], none⟩
  | _ => ⟨l.operations, none⟩

def ofLines (lines : List (Line η)) : Ledger η := lines.foldl enter ⟨[], none⟩

@[simp] theorem ofLines_snoc (lines : List (Line η)) (line : Line η) :
    ofLines (lines ++ [line]) = (ofLines lines).enter line := by
  simp [ofLines]

/-- What a line asks of the ledger before it.  Calls of factories and announcements of kinds to
    be mounted do not stand alone. -/
def Admits (catalog : Catalog (Step η) η) (l : Ledger η) : Line η → Prop
  | .happened (.built _ _) | .happened (.notice (.addingCapability _)) => False
  | .happened (.notice (.rejectedUnknown key)) => catalog.get? key = none
  | .happened (.resolved (.committed number m)) =>
    number = l.operations.length + 1 ∧ (∀ key, l.announced ≠ some (.adding key)) ∧
      (Operation.leadingTo m l.announced).apply (replay l.operations) = m
  | _ => True

end Ledger

/-! ## Calls of factories -/

/-- `Regular catalog lines total calls`: what is mounted in these lines is mounted by calls of the
    catalog's factories, of which there have been `total`; those in `calls` are still under way,
    the latest first. -/
inductive Regular (catalog : Catalog (Step η) η) :
    List (Line η) → Nat → List (String × Nat) → Prop where
  | nil : Regular catalog [] 0 []
  | line {lines total calls} {line : Line η} : Regular catalog lines total calls →
      (Ledger.ofLines lines).Admits catalog line → Regular catalog (lines ++ [line]) total calls
  | called {lines total calls key} {factory : Factory (Step η) η} :
      Regular catalog lines total calls → catalog.get? key = some factory →
      Regular catalog (lines ++ [.built key (total + 1)]) (total + 1) ((key, total + 1) :: calls)
  /-- The factory did not come to its end. -/
  | broken {lines total call calls} : Regular catalog lines total (call :: calls) →
      Regular catalog lines total calls
  /-- The factory has come to its end, but the mapping is borrowed. -/
  | refused {lines total calls key number} : Regular catalog lines total ((key, number) :: calls) →
      Regular catalog (lines ++ [.adding key]) total calls
  /-- The factory has come to its end, and the handle is mounted. -/
  | added {lines total calls key number} {factory : Factory (Step η) η} :
      Regular catalog lines total ((key, number) :: calls) → catalog.get? key = some factory →
      Regular catalog (lines ++ [.adding key,
        .committed ((Ledger.ofLines lines).operations.length + 1)
          ((replay (Ledger.ofLines lines).operations).insert key (factory.make number))])
        total calls

/-! ## Worlds -/

def World.ledger (w : World η) : Ledger η := .ofLines w.journal.toList

/-- In a world the calls of factories are as its journal tells, and `calls` are under way. -/
def World.Calling (w : World η) (catalog : Catalog (Step η) η) (calls : List (String × Nat)) :
    Prop :=
  Regular catalog w.journal.toList w.registry.calls calls

/-- The registry of a world is what the ledger says: its mapping is built up by the operations, its
    version is their number, and what they have mounted was made by calls of factories. -/
structure World.Linear (catalog : Catalog (Step η) η) (w : World η) : Prop where
  catalog_eq : w.registry.catalog = catalog
  value_eq : w.registry.resolved.value = replay w.ledger.operations
  version_eq : w.registry.resolved.version = w.ledger.operations.length
  calling : ∃ calls, w.Calling catalog calls

variable {catalog : Catalog (Step η) η} {w : World η}

theorem World.journal_record (w : World η) (line : Line η) :
    (w.record line).journal.toList = w.journal.toList ++ [line] :=
  Array.toList_push

theorem World.ledger_record (w : World η) (line : Line η) :
    (w.record line).ledger = w.ledger.enter line := by
  rw [World.ledger, World.journal_record, Ledger.ofLines_snoc, World.ledger]

theorem World.ledger_adding (w : World η) (key : String) :
    (w.record (Line.adding key)).ledger = ⟨w.ledger.operations, some (.adding key)⟩ :=
  ledger_record w _

theorem World.ledger_removing (w : World η) (key : String) :
    (w.record (Line.removing key)).ledger = ⟨w.ledger.operations, some (.removing key)⟩ :=
  ledger_record w _

theorem World.calling_record {line : Line η} {calls : List (String × Nat)} :
    (w.record line).Calling catalog calls ↔
      Regular catalog (w.journal.toList ++ [line]) w.registry.calls calls := by
  rw [World.Calling, World.journal_record]
  exact Iff.rfl

end LiveState.Registry.Scenario
