import LiveState.Storage.Error
import LiveState.Storage.Database

/-!
# Media

What settings are kept on: memory, a database, or nothing at all.  A medium maps keys to bytes.
Media that share a backing store see each other's writes; all others are independent.
-/

namespace LiveState

/-- What a medium with a switch does when it is asked. -/
inductive FaultMode where
  | ok
  | unavailable
  | io
  | panic
  deriving DecidableEq, Repr

/-- The modes of a medium with switches. -/
structure Switches where
  read : FaultMode
  write : FaultMode

/-- A medium: a reference to its backing store. -/
inductive Medium where
  /-- Switched off: nothing is ever stored. -/
  | disabled
  /-- A table in memory, which goes with the last of its users. -/
  | region (index : Nat)
  /-- A table in memory behind switches. -/
  | switched (region switches : Nat)
  /-- The database at a location. -/
  | database (location : Location)
  deriving DecidableEq, Repr

structure Media where
  regions : Array (OrderedMap String ByteArray)
  switches : Array Switches
  files : FileTree

inductive Response (α : Type) where
  | answered (a : α)
  | failed (e : StorageError)
  | panicked

namespace Media

def ofFiles (files : FileTree) : Media := ⟨#[], #[], files⟩

def newRegion (m : Media) (entries : OrderedMap String ByteArray) : Medium × Media :=
  (.region m.regions.size, { m with regions := m.regions.push entries })

def newSwitched (m : Media) (entries : OrderedMap String ByteArray) (s : Switches) :
    Medium × Media :=
  (.switched m.regions.size m.switches.size,
    { m with regions := m.regions.push entries, switches := m.switches.push s })

/-- The names of databases that are private to their connection. -/
def isPrivateName (path : String) : Bool := path == "" || path == ":memory:"

/-- Open the database at a path.  Directories on the way to it are made, even if the database
    then cannot be opened. -/
def openDatabase (m : Media) (path : String) : Except StorageError Medium × Media :=
  if isPrivateName path then
    let (medium, m) := m.newRegion .empty
    (.ok medium, m)
  else
    match m.files.prepareParent path with
    | (files, some failure) => (.error (.io failure), { m with files := files })
    | (files, none) =>
      let (files, opened) := files.openDatabase path
      ((opened.map Medium.database).elim (.error .database) .ok, { m with files := files })

def lookup (m : Media) (region : Nat) (key : String) : Option ByteArray :=
  (m.regions[region]?).bind (·.get? key)

def store (m : Media) (region : Nat) (key : String) (bytes : ByteArray) : Media :=
  { m with regions := m.regions.modify region (·.insert key bytes) }

/-- The mode of a switch; a switch that is not there stays in the first mode. -/
def mode (m : Media) (switches : Nat) (select : Switches → FaultMode) : FaultMode :=
  ((m.switches[switches]?).map select).getD .ok

def read (m : Media) (medium : Medium) (key : String) : Response (Option ByteArray) :=
  match medium with
  | .disabled => .answered none
  | .region i => .answered (m.lookup i key)
  | .switched i s =>
    match m.mode s (·.read) with
    | .ok => .answered (m.lookup i key)
    | .unavailable => .failed .unavailable
    | .io => .failed (.io .corrupted)
    | .panic => .panicked
  | .database l =>
    match m.files.table? l with
    | some table =>
      match table.get? key with
      | none => .answered none
      | some (.bytes b) => .answered (some b)
      | some (.text _) => .failed .database
    | none => .failed .database

def write (m : Media) (medium : Medium) (key : String) (bytes : ByteArray) :
    Response Unit × Media :=
  match medium with
  | .disabled => (.failed .unavailable, m)
  | .region i => (.answered (), m.store i key bytes)
  | .switched i s =>
    match m.mode s (·.write) with
    | .ok => (.answered (), m.store i key bytes)
    | .unavailable => (.failed .unavailable, m)
    | .io => (.failed (.io .full), m)
    | .panic => (.panicked, m)
  | .database l =>
    match m.files.table? l with
    | some table =>
      if m.files.isReadOnly l then (.failed .database, m)
      else (.answered (), { m with files := m.files.setTable l (table.insert key (.bytes bytes)) })
    | none => (.failed .database, m)

/-- Turn the switches of a medium.  A mode that is not given stays. -/
def turn (m : Media) (medium : Medium) (read write : Option FaultMode) : Media :=
  match medium with
  | .switched _ s =>
    { m with switches := m.switches.modify s fun old =>
      ⟨read.getD old.read, write.getD old.write⟩ }
  | _ => m

end Media

end LiveState
