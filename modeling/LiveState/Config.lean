import LiveState.Text.Description

/-!
# Configuration

Where the settings of a session are kept: at a path that was asked for, else at one that the
environment names, else in the user's configuration directory.  Nothing is created here.
-/

namespace LiveState

/-- Join two paths.  A slash is put between them where it is needed; an absolute path replaces
    what stands before it. -/
def joinPath (left right : String) : String :=
  if right.startsWith "/" || left.isEmpty then right
  else if left.endsWith "/" then left ++ right
  else left ++ "/" ++ right

structure Environment where
  home : String
  configHome : Option String
  settingsFile : Option String

structure Config where
  settingsPath : String
  deriving DecidableEq, Repr

namespace Config

def fileName : String := "seek.sqlite3"

def inDirectory (dir : String) : Config := ⟨joinPath dir fileName⟩

/-- The program's directory among the user's configuration files.  A configuration home counts
    only if its path is absolute. -/
def platformDirectory (env : Environment) : String :=
  match env.configHome.filter (·.startsWith "/") with
  | some dir => joinPath dir "seek"
  | none => joinPath (joinPath env.home ".config") "seek"

/-- Choose the settings file.  An empty variable counts as unset, an empty request does not. -/
def discover (requested : Option String) (env : Environment) : Config :=
  match requested, env.settingsFile.filter (!·.isEmpty) with
  | some path, _ => ⟨path⟩
  | none, some path => ⟨path⟩
  | none, none => inDirectory (platformDirectory env)

open Text in
instance : Describe Config where
  describe c := .record "AppConfig" [("settings_path", .text c.settingsPath)]

end Config

end LiveState
