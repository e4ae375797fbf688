import LiveState.Text.Description
import LiveState.View

/-!
# Panels

The kinds of panel that a layout can mount, and the mounted panels themselves.
-/

namespace LiveState

inductive PanelKind where
  | searchResult
  | parseError
  deriving DecidableEq, Repr

namespace PanelKind

def all : List PanelKind := [.searchResult, .parseError]

def name : PanelKind → String
  | .searchResult => "SearchResult"
  | .parseError => "ParseError"

def title : PanelKind → String
  | .searchResult => "Search results"
  | .parseError => "Query errors"

def ofName? (s : String) : Option PanelKind := all.find? (·.name == s)

def position (k : PanelKind) : Nat := all.idxOf k

theorem mem_all (k : PanelKind) : k ∈ all := by cases k <;> decide

theorem ofName?_name (k : PanelKind) : ofName? k.name = some k := by cases k <;> decide

theorem name_eq_of_ofName? {s : String} {k : PanelKind} (h : ofName? s = some k) :
    k.name = s := by
  have := List.find?_some h
  simpa using this

end PanelKind

/-- A mounted panel: its kind, and the number of the build that made it. -/
structure Panel where
  kind : PanelKind
  instanceNumber : Nat
  deriving DecidableEq, Repr

def PanelKind.build (k : PanelKind) (number : Nat) : Panel := ⟨k, number⟩

open Text in
instance : Describe PanelKind := ⟨fun k => .atom k.name⟩

open Text in
instance : Describe Panel where
  describe p := .record "Panel" [("kind", describe p.kind), ("instance", .number p.instanceNumber)]

instance : Viewed Panel := ⟨fun p => .list [.text p.kind.name, .number p.instanceNumber]⟩

end LiveState
