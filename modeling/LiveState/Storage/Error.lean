/-!
# Storage errors

Why a medium does not read or write.
-/

namespace LiveState

inductive IoFailure where
  | full
  | corrupted
  /-- A path holds a NUL, so that it cannot be handed to the system. -/
  | nulInPath
  /-- A file or a directory could not be made or opened. -/
  | system
  deriving DecidableEq, Repr

inductive StorageError where
  | unavailable
  | database
  | io (cause : IoFailure)
  deriving DecidableEq, Repr

/-- The wording of a storage error.  What the database or the system adds is left out. -/
def StorageError.message : StorageError → String
  | .unavailable => "persistent storage is unavailable"
  | .database => "sqlite storage failure"
  | .io .full => "storage i/o failure: medium full"
  | .io .corrupted => "storage i/o failure: medium corrupted"
  | .io .nulInPath => "storage i/o failure: file name contained an unexpected NUL byte"
  | .io .system => "storage i/o failure"

end LiveState
