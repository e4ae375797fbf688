import LiveState.Json.Printer
import LiveState.Storage.Error
import LiveState.Text.Quoted

/-!
# Load errors

Why stored settings cannot be used, from a medium that does not answer to a field of the wrong
type.
-/

namespace LiveState.Settings

inductive Expected where
  | integer
  | sequence
  | text
  | flag
  | pair
  deriving DecidableEq, Repr

def Expected.message : Expected → String
  | .integer => "i64"
  | .sequence => "a sequence"
  | .text => "a string"
  | .flag => "a boolean"
  | .pair => "a tuple of size 2"

/-- How a value is named that stands where another is asked for. -/
def foundMessage : Json → String
  | .null => "null"
  | .bool b => "boolean `" ++ (if b then "true" else "false") ++ "`"
  | .int n => "integer `" ++ toString n ++ "`"
  | .float x => "floating point `" ++ Decimal.Layout.json.render x ++ "`"
  | .str s => "string " ++ Text.quoted s
  | .arr _ => "sequence"
  | .obj _ => "map"

/-- Why a value does not fit a schema. -/
inductive ShapeError where
  | wrongType (found : Json) (expected : Expected)
  /-- A whole number beyond the range of signed 64-bit numbers. -/
  | outOfRange (n : Int)
  | missingField (name : String)
  /-- A map whose keys are not texts cannot be an object. -/
  | keyNotText

def ShapeError.message : ShapeError → String
  | .wrongType found expected =>
    "invalid type: " ++ foundMessage found ++ ", expected " ++ expected.message
  | .outOfRange n =>
    "invalid value: " ++ foundMessage (.int n) ++ ", expected " ++ Expected.integer.message
  | .missingField name => "missing field `" ++ name ++ "`"
  | .keyNotText => "key must be a string"

/-- Why stored settings cannot be used. -/
inductive LoadError where
  | unreadable (error : StorageError)
  | notJson
  | notRecord
  | shape (error : ShapeError)

def LoadError.message : LoadError → String
  | .unreadable e => "failed to read stored settings: " ++ e.message
  | .notJson => "stored settings are not valid JSON"
  | .notRecord => "stored settings are not a JSON object"
  | .shape e => "stored settings do not match the schema: " ++ e.message

end LiveState.Settings
