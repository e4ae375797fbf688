import LiveState.Json.Parser
import LiveState.Json.Printer
import LiveState.Storage.FileTree

/-!
# Images of databases

A database as it stands in a file: a JSON object with one field for each key of the table.  A
text is stored as a string, and bytes are stored as the list of their numbers, so that the two
stay apart.  An object of any other shape is a database with other columns, and what is no object
is no database.
-/

namespace LiveState

def Json.byte? : Json → Option UInt8
  | .int n => if 0 ≤ n ∧ n < 256 then some (UInt8.ofNat n.toNat) else none
  | _ => none

namespace Stored

def image : Stored → Json
  | .bytes b => .arr (b.data.toList.map fun x => .int x.toNat)
  | .text s => .str s

def ofImage? : Json → Option Stored
  | .arr items => (items.mapM Json.byte?).map fun bytes => .bytes ⟨bytes.toArray⟩
  | .str s => some (.text s)
  | _ => none

theorem byte?_int_toNat (x : UInt8) : (Json.int x.toNat).byte? = some x := by
  simp only [Json.byte?]
  rw [if_pos ⟨by omega, by have := x.toNat_lt; omega⟩]
  simp

theorem mapM_byte?_image (bytes : List UInt8) :
    (bytes.map fun x : UInt8 => Json.int x.toNat).mapM Json.byte? = some bytes := by
  induction bytes with
  | nil => rfl
  | cons x rest ih => simp [byte?_int_toNat, ih]

theorem ofImage?_image (v : Stored) : ofImage? v.image = some v := by
  cases v with
  | bytes b => rw [image, ofImage?, mapM_byte?_image]; rfl
  | text s => rfl

end Stored

namespace Node

def table? (fields : Json.Fields) : Option (OrderedMap String Stored) :=
  (fields.mapM fun f => (Stored.ofImage? f.2).map fun v => (f.1, v)).map .ofList

def ofBytes (content : ByteArray) : Node :=
  match (String.fromUTF8? content).bind Json.parse? with
  | some (.obj fields) => ((table? fields).map .database).getD .foreignDatabase
  | _ => .file content

def tableBytes (table : OrderedMap String Stored) : ByteArray :=
  (Json.obj (Json.Fields.ofMembers (table.entries.map fun e => (e.1, e.2.image)))).compact.toUTF8

end Node

end LiveState
