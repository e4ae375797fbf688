import LiveState.OrderedMap
import LiveState.Storage.Error
import LiveState.Storage.Location

/-!
# Files and databases

The files that settings may be kept in.  A file is a plain file or a database; a database has a
table of keys and values, which every connection to it sees at once and which outlives all of
them.  As long as there are connections to it, a database is in use, and its file may lag behind.
-/

namespace LiveState

/-- A value in a table: bytes, or a text put there by somebody else. -/
inductive Stored where
  | bytes (b : ByteArray)
  | text (s : String)

inductive Node where
  | directory
  | file (content : ByteArray)
  | database (table : OrderedMap String Stored)
  /-- A database whose table of that name has other columns. -/
  | foreignDatabase

structure Usage where
  /-- The database was made since, so that all of it is in its log. -/
  isNew : Bool
  /-- Something was written to it since. -/
  isWritten : Bool
  /-- What somebody else has written over its file since. -/
  cover : Option ByteArray

/-- Directories, files and databases by depth and location, the working directory, and the
    databases in use.  The depth tells most locations apart at once. -/
structure FileTree where
  nodes : OrderedMap (Nat × Location) Node
  cwd : Location
  usages : OrderedMap Location Usage

namespace FileTree

def node? (t : FileTree) (l : Location) : Option Node :=
  if l.isEmpty then some .directory else t.nodes.get? (l.length, l)

def isDirectory (t : FileTree) (l : Location) : Bool :=
  match t.node? l with
  | some .directory => true
  | _ => false

def put (t : FileTree) (l : Location) (n : Node) : FileTree :=
  { t with nodes := t.nodes.insert (l.length, l) n }

def remove (t : FileTree) (l : Location) : FileTree :=
  { t with nodes := t.nodes.erase (l.length, l) }

/-- The root is a directory, and every other location holds what was put there last. -/
theorem node?_put_self {l : Location} (h : l ≠ []) (t : FileTree) (n : Node) :
    (t.put l n).node? l = some n := by
  simp [node?, put, h]

theorem node?_put_of_ne {l j : Location} (h : j ≠ l) (t : FileTree) (n : Node) :
    (t.put l n).node? j = t.node? j := by
  have keys : (j.length, j) ≠ (l.length, l) := fun same => h (congrArg Prod.snd same)
  simp [node?, put, OrderedMap.get?_insert_of_ne keys]

theorem node?_remove_of_ne {l j : Location} (h : j ≠ l) (t : FileTree) :
    (t.remove l).node? j = t.node? j := by
  have keys : (j.length, j) ≠ (l.length, l) := fun same => h (congrArg Prod.snd same)
  simp [node?, remove, OrderedMap.get?_erase_of_ne keys]

/-- Follow parts from a location, which must be a directory as long as there are parts left. -/
def walk? (t : FileTree) : Location → List String → Option Location
  | l, [] => some l
  | l, p :: ps =>
    if t.isDirectory l && Location.fits p then walk? t (l.step p) ps else none

def locate? (t : FileTree) (path : String) : Option Location :=
  if Location.isPassable path then
    t.walk? (Location.origin t.cwd path) (Location.written path)
  else none

/-- Make directories along the given parts, as far as that is possible: a file in the way or a
    name that is too long stops it.  The directories made before are not taken back. -/
def makeAlong (t : FileTree) : Location → List String → FileTree × Bool
  | _, [] => (t, true)
  | l, p :: ps =>
    if !Location.fits p then (t, false)
    else
      match t.node? (l.step p) with
      | some .directory => makeAlong t (l.step p) ps
      | some _ => (t, false)
      | none => makeAlong (t.put (l.step p) .directory) (l.step p) ps

/-- Making directories replaces nothing. -/
theorem node?_makeAlong {t : FileTree} {j : Location} {n : Node} (h : t.node? j = some n)
    (l : Location) (ps : List String) : (t.makeAlong l ps).1.node? j = some n := by
  induction ps generalizing t l with
  | nil => exact h
  | cons p ps ih =>
    simp only [makeAlong]
    split
    · exact h
    · split
      · exact ih h _
      · exact h
      · next missing =>
        refine ih ?_ _
        rw [node?_put_of_ne (fun same => ?_), h]
        rw [← same, h] at missing
        exact absurd missing (by simp)

def empty (cwd : Location) : FileTree := (makeAlong ⟨.empty, cwd, .empty⟩ [] cwd).1

/-- Make the directory at a path, and those on the way to it.  A dot at the end of a path does not
    make a directory but must find one. -/
def makeDirectories (t : FileTree) (path : String) : FileTree × Bool :=
  let start := Location.origin t.cwd path
  let named := Location.trimEnd (Location.written path)
  let idle := (Location.written path).drop named.length
  if path = "" then (t, true)
  else if !Location.isPassable path then (t, false)
  else if idle.contains "." && (t.locate? path).isNone then
    let (t, made) := t.makeAlong start (Location.directoryParts path)
    (t, made && (t.locate? path).isSome)
  else t.makeAlong start named

inductive Status where
  | directory
  | file
  | nothing
  deriving DecidableEq, Repr

def status (t : FileTree) (path : String) : Status :=
  match (t.locate? path).bind t.node? with
  | none => .nothing
  | some .directory => .directory
  | some _ => .file

/-- Put a plain file at a location.  Those who use a database there go on using it. -/
def overwrite (t : FileTree) (l : Location) (content : ByteArray) : FileTree :=
  match t.usages.get? l with
  | some u => { t with usages := t.usages.insert l { u with cover := some content } }
  | none => t.put l (.file content)

/-- Write a plain file, if its directory exists and no directory is in the way. -/
def writeFile (t : FileTree) (path : String) (content : ByteArray) : Option FileTree := do
  let l ← t.locate? path
  if t.isDirectory l || !t.isDirectory l.dropLast then none
  else some (t.overwrite l content)

/-- Make sure that the directory of a file is there.  A file that stands in its place is no
    obstacle here.  If the directory cannot be made, some on the way to it may be there now. -/
def prepareParent (t : FileTree) (path : String) : FileTree × Option IoFailure :=
  let start := Location.origin t.cwd path
  let parent := Location.directoryParts path
  let text := "/".intercalate parent
  if Location.hasNul text then (t, some .nulInPath)
  else if text != "" && !Location.isPassable text then (t, some .system)
  else
    match (t.walk? start parent).bind t.node? with
    | some _ => (t, none)
    | none =>
      let (t, made) := t.makeAlong start parent
      (t, if made then none else some .system)

end FileTree

end LiveState
