import LiveState.Json.Parser
import LiveState.Settings.Error

/-!
# Settings records

A type of settings says how a value is written as a JSON document and how it is read back from
the fields of an object.  From these two, `Settings.decode` tells what stored bytes mean: the
fields of the default that are missing are filled in, and fields are never taken away before the
type has seen them.
-/

namespace LiveState.Settings

/-- Types of settings. -/
class Record (ρ : Type) where
  /-- The JSON document of a value.  Its fields are in the order in which they are written, and
      names may be repeated. -/
  document : ρ → Except ShapeError Json
  /-- Read a value from the fields of an object. -/
  ofFields : Json.Fields → Except ShapeError ρ

/-- A document as a value: sorted fields, and of a repeated name the last. -/
def normalize : Json → Json
  | .obj members => .obj (Json.Fields.ofMembers members)
  | v => v

/-- The fields that a default provides. -/
def defaultFields {ρ : Type} [Record ρ] (default : ρ) : Except ShapeError Json.Fields := do
  match normalize (← Record.document default) with
  | .obj fields => return fields
  | _ => return []

def parseBytes? (bytes : ByteArray) : Option Json := (String.fromUTF8? bytes).bind Json.parse?

/-- The record that the fields of a stored object stand for. -/
def ofStored {ρ : Type} [Record ρ] (default : ρ) (fields : Json.Fields) : Except ShapeError ρ := do
  let defaults ← defaultFields default
  Record.ofFields (fields.backfill defaults)

/-- The record that stored bytes stand for. -/
def decode {ρ : Type} [Record ρ] (default : ρ) (bytes : ByteArray) : Except LoadError ρ :=
  match parseBytes? bytes with
  | none => .error .notJson
  | some (.obj fields) => (ofStored default fields).mapError .shape
  | some _ => .error .notRecord

def encode {ρ : Type} [Record ρ] (v : ρ) : Except ShapeError ByteArray := do
  let document ← Record.document v
  return document.compact.toUTF8

/-! ## Reading single values -/

def fitsInt64 (n : Int) : Bool :=
  decide (-0x8000000000000000 ≤ n) && decide (n < 0x8000000000000000)

def readInteger : Json → Except ShapeError Int64
  | .int n => if fitsInt64 n then .ok (Int64.ofInt n) else .error (.outOfRange n)
  | v => .error (.wrongType v .integer)

def readText : Json → Except ShapeError String
  | .str s => .ok s
  | v => .error (.wrongType v .text)

def readFlag : Json → Except ShapeError Bool
  | .bool b => .ok b
  | v => .error (.wrongType v .flag)

def readTexts : Json → Except ShapeError (List String)
  | .arr items => items.mapM readText
  | v => .error (.wrongType v .sequence)

def readField {β : Type} (fields : Json.Fields) (name : String)
    (read : Json → Except ShapeError β) : Except ShapeError β :=
  match fields.get? name with
  | some v => read v
  | none => .error (.missingField name)

end LiveState.Settings
