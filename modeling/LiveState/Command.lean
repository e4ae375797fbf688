import LiveState.Registry.Basic
import LiveState.Settings.Basic
import LiveState.Settings.User

/-!
# Commands

What the program can be told to do with the panels and the settings of a session.  A command writes
line by line what it has to show, and fails as soon as the writer does.
-/

namespace LiveState

inductive Command where
  | settings
  | setLimit (limit : UInt32)
  | reset
  | panels (names : List String)
  deriving DecidableEq, Repr

namespace Command

inductive Failure where
  | unknownKinds (names known : List String)
  | writerFull
  deriving DecidableEq, Repr

def Failure.message : Failure → String
  | .unknownKinds names known =>
    "unknown panel kind: " ++ ", ".intercalate names ++ " (expected one of: " ++
      ", ".intercalate known ++ ")"
  | .writerFull => "writer full"

/-! ## Writers -/

/-- A writer, and what it has taken so far. -/
structure Writer where
  /-- How many more bytes the writer takes, if there is a limit. -/
  room : Option Nat
  taken : ByteArray

namespace Writer

def fits (bytes : ByteArray) (writer : Writer) : Bool :=
  writer.room.all fun n => bytes.size ≤ n

def take (bytes : ByteArray) (writer : Writer) : Writer :=
  match writer.room with
  | none => ⟨none, writer.taken ++ bytes⟩
  | some n => ⟨some (n - bytes.size), writer.taken ++ bytes.extract 0 n⟩

end Writer

/-- A program that writes as it goes, and is over as soon as it fails. -/
abbrev Printing (W : Type) : Type → Type := ExceptT Failure (StateT Writer (Act W))

variable {W σ : Type}

/-- Write a text.  What there is room for is taken, also if it is not all. -/
def print (text : String) : Printing W Unit := do
  let writer ← get
  set (writer.take text.toUTF8)
  unless writer.fits text.toUTF8 do throw .writerFull

/-- Let a program write to a writer that takes at most `room` bytes: what reaches the writer, and
    whether the program fails. -/
def Printing.through (m : Printing W Unit) (room : Option Nat) :
    Act W (ByteArray × Option Failure) := do
  let (ended, writer) ← m.run.run ⟨room, .empty⟩
  match ended with
  | .ok () => return (writer.taken, none)
  | .error failure => return (writer.taken, some failure)

/-! ## What the commands do -/

variable (panels : Registry.Site W σ Panel)
  (settings : Settings.Site W σ UserSettings) (nested : Nested W σ)

def printSettings : Printing W Unit := do
  let u ← settings.look (·.value.value)
  print (u.document.pretty ++ "\n")

/-- Mount the panels of the given names.  The result are the names that no kind has. -/
def mount : List String → Act W (List String)
  | [] => return []
  | name :: names => do
    match PanelKind.ofName? name with
    | some kind =>
      panels.addKind nested kind
      mount names
    | none =>
      panels.jot (.notice (.skippingPanel (.unknownCapability name)))
      return name :: (← mount names)

def panelLine (position : Nat) (panel : Panel) : String :=
  toString position ++ ". " ++ panel.kind.title ++ " (" ++ panel.kind.name ++ ")\n"

def printLayout : Printing W Unit := do
  if ← panels.look (·.resolved.value.size == 0) then print "No panels mounted\n"
  let entries ← panels.look (·.resolved.value.entries)
  entries.zipIdx.forM fun (entry, i) => print (panelLine (i + 1) entry.2)

/-- What a command does in a session with the given panels and settings. -/
def write : Command → Printing W Unit
  | .settings => printSettings settings
  | .setLimit limit => do
    settings.value.update (settings.call nested)
      (fun u => { u with resultLimit := Int64.ofNat limit.toNat }) false (pure ())
    print ("Showing up to " ++ toString limit.toNat ++ " results\n")
  | .reset => do
    settings.reset nested
    printSettings settings
  | .panels names => do
    let unknown ← mount panels nested names
    printLayout panels
    unless unknown.isEmpty do
      let known ← panels.look (·.catalog.keys)
      throw (.unknownKinds unknown known)

end Command

end LiveState
