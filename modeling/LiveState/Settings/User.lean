import LiveState.Json.Description
import LiveState.Settings.Record
import LiveState.View

/-!
# User settings

The settings of a user: a limit that the program knows, and any fields that other versions of it
have written.  Both stand in one JSON object, the limit first.
-/

namespace LiveState

open Text

/-- The settings of a user. -/
structure UserSettings where
  /-- How many results to show at most. -/
  resultLimit : Int64
  /-- The fields that this program does not know. -/
  extra : Json.Fields

namespace UserSettings

def limitField : String := "result_limit"

def initial : UserSettings := ⟨21, []⟩

instance : Inhabited UserSettings := ⟨initial⟩

/-- The JSON document of the settings.  Should an unknown field have the name of the limit, both
    are written. -/
def document (u : UserSettings) : Json :=
  .obj ((limitField, .int u.resultLimit.toInt) :: u.extra)

def ofFields (fields : Json.Fields) : Except Settings.ShapeError UserSettings := do
  let limit ← Settings.readField fields limitField Settings.readInteger
  return ⟨limit, fields.erase limitField⟩

instance : Settings.Record UserSettings where
  document u := .ok u.document
  ofFields := ofFields

/-- Settings are seen as the text that is stored. -/
instance : Viewed UserSettings := ⟨fun u => .text u.document.compact⟩

end UserSettings

instance : Describe UserSettings where
  describe u := .record "UserSettings"
    [("result_limit", .number u.resultLimit.toInt),
      ("extra", .map (Json.fieldDescriptions u.extra))]

/-- A revision of user settings: a new limit, a summand for it, a field to set, a field to take
    out, in this order. -/
structure UserSettings.Revision where
  limit : Option Int64
  add : Option Int64
  put : Option (String × Json)
  del : Option String

def UserSettings.Revision.apply (r : UserSettings.Revision) (u : UserSettings) : UserSettings :=
  let limit := r.limit.getD u.resultLimit + r.add.getD 0
  let extra := match r.put with
    | some (k, v) => u.extra.insert k v
    | none => u.extra
  let extra := match r.del with
    | some k => extra.erase k
    | none => extra
  ⟨limit, extra⟩

end LiveState
