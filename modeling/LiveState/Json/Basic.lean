/-!
# JSON values

Values as a JSON text denotes them.  Whole numbers are kept apart from the others, and the fields
of an object are sorted by their names.
-/

namespace LiveState

inductive Json where
  | null
  | bool (b : Bool)
  | int (n : Int)
  /-- Any other number, and whole numbers too large to be kept exactly. -/
  | float (x : Float)
  | str (s : String)
  | arr (items : List Json)
  | obj (fields : List (String × Json))

instance : Inhabited Json := ⟨.null⟩

namespace Json

/-- Fields sorted by name, each name once. -/
abbrev Fields := List (String × Json)

namespace Fields

def insert (k : String) (v : Json) : Fields → Fields
  | [] => [(k, v)]
  | f :: fs =>
    if k < f.1 then (k, v) :: f :: fs
    else if k = f.1 then (k, v) :: fs
    else f :: insert k v fs

def get? (fs : Fields) (k : String) : Option Json := (fs.find? (·.1 = k)).map (·.2)

def erase (fs : Fields) (k : String) : Fields := fs.filter fun f => !decide (f.1 = k)

/-- Give the field `k` the value `v` unless it has a value. -/
def insertIfNew (k : String) (v : Json) (fs : Fields) : Fields :=
  if (fs.get? k).isSome then fs else fs.insert k v

/-- The fields that members in the order of a text stand for: of a repeated name the last
    counts. -/
def ofMembers (members : List (String × Json)) : Fields :=
  members.foldl (fun fs f => insert f.1 f.2 fs) []

/-- `fs` with the fields of `defaults` that it lacks. -/
def backfill (fs defaults : Fields) : Fields :=
  defaults.foldl (fun fs f => insertIfNew f.1 f.2 fs) fs

end Fields

end Json

end LiveState
