import LiveState.Text.Quoted

/-!
# Descriptions of values

What a value looks like to somebody who inspects it: records with named fields, tuples, lists and
maps.  A description is written either on one line or indented, one field or element a line.
-/

namespace LiveState.Text

inductive Description where
  /-- A text that stands for itself. -/
  | atom (text : String)
  | labelled (label : String) (inner : Description)
  | record (name : String) (fields : List (String × Description))
  /-- A tuple, with the name of its type or without one. -/
  | tuple (name : String) (items : List Description)
  | list (items : List Description)
  | map (entries : List (Description × Description))

namespace Description

def text (s : String) : Description := .atom (quoted s)

def flag (b : Bool) : Description := .atom (if b then "true" else "false")

def number (n : Int) : Description := .atom (toString n)

/-- The parts between an opening and a closing text, on one line. -/
def enclose (opening closing : String) (parts : List String) : String :=
  opening ++ ", ".intercalate parts ++ closing

/-- The parts between an opening and a closing text, one a line, each followed by a comma.
    Without parts the two texts stand together. -/
def enclosePadded (pad opening closing : String) (parts : List String) : String :=
  if parts.isEmpty then opening ++ closing
  else opening ++ "\n" ++ String.join (parts.map fun p => pad ++ "    " ++ p ++ ",\n")
    ++ pad ++ closing

mutual

def inline : Description → String
  | .atom s => s
  | .labelled label inner => label ++ " " ++ inner.inline
  | .record name fields =>
    if fields.isEmpty then name
    else enclose (name ++ " \x7b ") " \x7d" (inlineFields fields)
  | .tuple name items => enclose (name ++ "(") ")" (inlineItems items)
  | .list items => enclose "[" "]" (inlineItems items)
  | .map entries => enclose "\x7b" "\x7d" (inlineEntries entries)

def inlineItems : List Description → List String
  | [] => []
  | d :: ds => d.inline :: inlineItems ds

def inlineFields : List (String × Description) → List String
  | [] => []
  | (name, d) :: fs => (name ++ ": " ++ d.inline) :: inlineFields fs

def inlineEntries : List (Description × Description) → List String
  | [] => []
  | (k, v) :: es => (k.inline ++ ": " ++ v.inline) :: inlineEntries es

end

mutual

/-- The description over several lines.  All lines but the first begin with `pad`. -/
def indented (pad : String) : Description → String
  | .atom s => s
  | .labelled label inner => label ++ " " ++ inner.indented pad
  | .record name fields =>
    if fields.isEmpty then name
    else enclosePadded pad (name ++ " \x7b") "\x7d" (indentedFields (pad ++ "    ") fields)
  | .tuple name items =>
    enclosePadded pad (name ++ "(") ")" (indentedItems (pad ++ "    ") items)
  | .list items => enclosePadded pad "[" "]" (indentedItems (pad ++ "    ") items)
  | .map entries => enclosePadded pad "\x7b" "\x7d" (indentedEntries (pad ++ "    ") entries)

def indentedItems (pad : String) : List Description → List String
  | [] => []
  | d :: ds => d.indented pad :: indentedItems pad ds

def indentedFields (pad : String) : List (String × Description) → List String
  | [] => []
  | (name, d) :: fs => (name ++ ": " ++ d.indented pad) :: indentedFields pad fs

def indentedEntries (pad : String) : List (Description × Description) → List String
  | [] => []
  | (k, v) :: es => (k.indented pad ++ ": " ++ v.indented pad) :: indentedEntries pad es

end

def render (d : Description) (pretty : Bool) : String :=
  if pretty then d.indented "" else d.inline

end Description

/-- Types whose values can be inspected. -/
class Describe (α : Type) where
  describe : α → Description

export Describe (describe)

instance : Describe Int64 := ⟨fun n => .number n.toInt⟩

instance : Describe String := ⟨.text⟩

instance {α : Type} [Describe α] : Describe (List α) := ⟨fun xs => .list (xs.map describe)⟩

end LiveState.Text
