import LiveState.Json.Printer
import LiveState.Text.Description

/-!
# Inspected JSON values

What a JSON value looks like to somebody who inspects it: each value with the name of its kind.
-/

namespace LiveState.Json

open Text

mutual

/-- What a JSON value looks like to somebody who inspects it. -/
def description : Json → Description
  | .null => .atom "Null"
  | .bool b => .atom (if b then "Bool(true)" else "Bool(false)")
  | .int n => .atom ("Number(" ++ toString n ++ ")")
  | .float x => .atom ("Number(" ++ Decimal.Layout.json.render x ++ ")")
  | .str s => .atom ("String(" ++ quoted s ++ ")")
  | .arr items => .labelled "Array" (.list (itemDescriptions items))
  | .obj fields => .labelled "Object" (.map (fieldDescriptions fields))

def itemDescriptions : List Json → List Description
  | [] => []
  | v :: vs => v.description :: itemDescriptions vs

def fieldDescriptions : List (String × Json) → List (Description × Description)
  | [] => []
  | (k, v) :: fs => (.text k, v.description) :: fieldDescriptions fs

end

instance : Describe Json := ⟨description⟩

end LiveState.Json
