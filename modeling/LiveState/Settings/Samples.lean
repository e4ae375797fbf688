import LiveState.Settings.User

/-!
# Other records

Further types of settings: any JSON value, a bare number, a layout with two fields, and a map
whose keys are no texts, so that only the empty one can be stored.
-/

namespace LiveState

open Text Settings

/-! ## Any value -/

instance : Record Json where
  document v := .ok v
  ofFields fields := .ok (.obj fields)

instance : Viewed Json := ⟨fun v => .text v.compact⟩

/-! ## A bare number -/

/-- A number as a whole record.  No object can be read as one. -/
structure Scalar where
  value : Int64

instance : Inhabited Scalar := ⟨⟨0⟩⟩

instance : Record Scalar where
  document n := .ok (.int n.value.toInt)
  ofFields fields := .error (.wrongType (.obj fields) .integer)

instance : Viewed Scalar := ⟨fun n => .text (toString n.value.toInt)⟩

instance : Describe Scalar := ⟨fun n => .number n.value.toInt⟩

/-! ## A layout -/

/-- The columns of a table, and whether it is drawn compactly. -/
structure Layout where
  columns : List String
  compact : Bool

namespace Layout

instance : Inhabited Layout := ⟨⟨["SearchResult"], false⟩⟩

def document (l : Layout) : Json :=
  .obj [("columns", .arr (l.columns.map .str)), ("compact", .bool l.compact)]

/-- The layout in the fields of an object; other fields are ignored. -/
def ofFields (fields : Json.Fields) : Except ShapeError Layout := do
  let columns ← readField fields "columns" readTexts
  let compact ← readField fields "compact" readFlag
  return ⟨columns, compact⟩

instance : Record Layout where
  document l := .ok l.document
  ofFields := ofFields

instance : Viewed Layout := ⟨fun l => .text l.document.compact⟩

instance : Describe Layout where
  describe l := .record "Layout"
    [("columns", describe l.columns), ("compact", .flag l.compact)]

/-- A revision of a layout: a column to append, and whether to draw compactly. -/
structure Revision where
  column : Option String
  compact : Option Bool

def Revision.apply (r : Revision) (l : Layout) : Layout :=
  ⟨l.columns ++ r.column.toList, r.compact.getD l.compact⟩

end Layout

/-! ## A map from pairs -/

/-- Numbers by pairs of numbers, sorted by the pairs. -/
structure Pairs where
  entries : List ((Int64 × Int64) × Int64)

namespace Pairs

instance : Inhabited Pairs := ⟨⟨[]⟩⟩

def insert (k : Int64 × Int64) (v : Int64) :
    List ((Int64 × Int64) × Int64) → List ((Int64 × Int64) × Int64)
  | [] => [(k, v)]
  | e :: es =>
    if k = e.1 then (k, v) :: es
    else if k.1 < e.1.1 ∨ (k.1 = e.1.1 ∧ k.2 < e.1.2) then (k, v) :: e :: es
    else e :: insert k v es

def ofTriples (ts : List (Int64 × Int64 × Int64)) : Pairs :=
  ⟨ts.foldl (fun es t => insert (t.1, t.2.1) t.2.2 es) []⟩

instance : Record Pairs where
  document p := if p.entries.isEmpty then .ok (.obj []) else .error .keyNotText
  ofFields
    | [] => .ok ⟨[]⟩
    | (k, _) :: _ => .error (.wrongType (.str k) .pair)

instance : Viewed Pairs where
  view p := .list (p.entries.map fun e =>
    .list [.number e.1.1.toInt, .number e.1.2.toInt, .number e.2.toInt])

instance : Describe Pairs where
  describe p := .tuple "Pairs" [.map (p.entries.map fun e =>
    (.tuple "" [.number e.1.1.toInt, .number e.1.2.toInt], .number e.2.toInt))]

end Pairs

end LiveState
