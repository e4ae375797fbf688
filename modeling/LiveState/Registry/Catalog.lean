import LiveState.OrderedMap
import LiveState.Panel

/-!
# Catalogs

A catalog says which kinds of capability there are and how a handle of each kind is made.  The
factories of one catalog share one counter, so that every handle is made from a fresh number.

A factory may also fail or run steps of its own at chosen calls; this is how scenarios put user
code on the way from a key to its handle.
-/

namespace LiveState.Registry

inductive Refusal where
  | unknownCapability (key : String)
  deriving DecidableEq, Repr

def Refusal.message : Refusal → String
  | .unknownCapability key => "unknown capability '" ++ key ++ "'"

instance : Text.Describe Refusal where
  describe | .unknownCapability key => .tuple "UnknownCapability" [.text key]

/-- How the handles of one kind are made. -/
structure Factory (σ η : Type) where
  make : Nat → η
  /-- The calls that panic instead of making a handle. -/
  panicsAt : List Nat := []
  /-- For some calls the steps that run before the handle is made. -/
  scripts : List (Nat × List σ) := []

namespace Factory

variable {σ η : Type}

def stepsAt (f : Factory σ η) (number : Nat) : List σ := (f.scripts.lookup number).getD []

def steps (f : Factory σ η) : List σ := f.scripts.flatMap (·.2)

theorem mem_steps_of_mem_stepsAt {f : Factory σ η} {number : Nat} {s : σ}
    (h : s ∈ f.stepsAt number) : s ∈ f.steps := by
  unfold stepsAt at h
  cases found : f.scripts.lookup number with
  | none => simp [found] at h
  | some script =>
    rw [found] at h
    obtain ⟨before, after, e, -⟩ := List.lookup_eq_some_iff.1 found
    exact List.mem_flatMap.2 ⟨(number, script), by simp [e], h⟩

end Factory

/-- The kinds in their order, with their factories. -/
abbrev Catalog (σ η : Type) := OrderedMap String (Factory σ η)

def Catalog.description {σ η : Type} (c : Catalog σ η) : Text.Description :=
  .record "Catalog" [("kinds", .list (c.keys.map .text))]

/-- The catalog of all kinds of panel.  Panels get the numbers of the calls that made them. -/
def Catalog.panels {σ : Type} : Catalog σ Panel :=
  .ofList (PanelKind.all.map fun k => (k.name, { make := k.build }))

/-- A catalog of some kinds of panel that gives every panel the same number. -/
def Catalog.fixedPanels {σ : Type} (kinds : List PanelKind) (number : Nat) : Catalog σ Panel :=
  .ofList (kinds.map fun k => (k.name, { make := fun _ => k.build number }))

/-- The factory of handles that show a label and the number of the call.  It may panic in one call,
    and run steps in one call. -/
def Factory.labelled {σ : Type} (label : String) (panicAt nestAt : Option Nat) (inner : List σ) :
    Factory σ String where
  make n := label ++ "#" ++ toString n
  panicsAt := panicAt.toList
  scripts := nestAt.toList.map fun n => (n, inner)

end LiveState.Registry
