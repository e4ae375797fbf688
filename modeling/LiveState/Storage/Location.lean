/-!
# Paths and locations

A path is a text whose parts stand between slashes; a location is where a path leads to.  Two dots
go up, empty parts and single dots stay where they are, and a path without a leading slash starts
at the working directory.

The system takes no path that is empty, too long or holds a NUL, and no name that is too long.
Databases have limits of their own: they are known by their absolute path, and they keep files
beside their own whose names are longer.
-/

namespace LiveState

/-- The parts of an absolute path. -/
abbrev Location := List String

namespace Location

/-- Whether a part of a path stays where it is. -/
def isIdle (part : String) : Bool := part == "" || part == "."

/-- The parts of a path, idle ones included. -/
def written (path : String) : List String := path.splitOn "/"

def parts (path : String) : List String := (written path).filter fun p => !isIdle p

/-- Parts up to the last one that counts. -/
def trimEnd (ps : List String) : List String := (ps.reverse.dropWhile isIdle).reverse

def directoryParts (path : String) : List String := trimEnd (trimEnd (written path)).dropLast

def origin (cwd : Location) (path : String) : Location := if path.startsWith "/" then [] else cwd

/-- Go on from a location by one part. -/
def step (l : Location) (part : String) : Location :=
  if isIdle part then l
  else if part = ".." then l.dropLast
  else l ++ [part]

def follow (l : Location) (ps : List String) : Location := ps.foldl step l

def passed : Location → List String → List Location
  | _, [] => []
  | l, p :: ps => l.step p :: passed (l.step p) ps

def resolve (cwd : Location) (path : String) : Location := follow (origin cwd path) (parts path)

theorem step_of_isIdle {part : String} (h : isIdle part = true) (l : Location) :
    l.step part = l := by
  simp [step, h]

theorem follow_filter (l : Location) (ps : List String) :
    l.follow (ps.filter fun p => !isIdle p) = l.follow ps := by
  induction ps generalizing l with
  | nil => rfl
  | cons p ps ih =>
    cases h : isIdle p with
    | true =>
      rw [List.filter_cons_of_neg (by simp [h]), ih]
      exact congrArg (ps.foldl step) (step_of_isIdle h l).symm
    | false =>
      rw [List.filter_cons_of_pos (by simp [h])]
      exact ih (l.step p)

/-! ## What the system takes -/

def hasNul (text : String) : Bool := text.toList.contains '\x00'

def fits (name : String) : Bool := decide (name.utf8ByteSize ≤ 255)

def isPassable (path : String) : Bool :=
  path != "" && !hasNul path && decide (path.utf8ByteSize ≤ 4095)

/-! ## What databases take -/

def size (l : Location) : Nat := l.foldl (fun n p => n + 1 + p.utf8ByteSize) 0

/-- Whether a database may be addressed by a path.  All that is passed on the way counts, too. -/
def isAddressable (cwd : Location) (path : String) : Bool :=
  !hasNul path && (parts path).all fits &&
    (passed (origin cwd path) (parts path)).all (fun l => decide (l.size < 512)) &&
    decide ((resolve cwd path).size ≤ 504)

/-- Beside a location: the same directory, and a name that goes on with the given ending. -/
def beside (l : Location) (ending : String) : Location :=
  match l.getLast? with
  | none => []
  | some name => l.dropLast ++ [name ++ ending]

/-- Where a database keeps what it needs to undo a change of its file. -/
def journal (l : Location) : Location := l.beside "-journal"

/-- Where a database in use keeps what is new in it. -/
def log (l : Location) : Location := l.beside "-wal"

/-- Where a database in use keeps the index of its log. -/
def index (l : Location) : Location := l.beside "-shm"

/-- Whether there is room for the names of the files that a database keeps beside its own.  That
    of the journal is the longest. -/
def hasRoom (l : Location) : Bool := l.journal.all fits

theorem getLast?_beside {l : Location} {name : String} (h : l.getLast? = some name)
    (ending : String) : (l.beside ending).getLast? = some (name ++ ending) := by
  simp [beside, h]

theorem beside_ne {l : Location} {ending : String} (hl : l ≠ []) (he : ending ≠ "") :
    l.beside ending ≠ l := by
  intro same
  cases h : l.getLast? with
  | none => exact hl (List.getLast?_eq_none_iff.1 h)
  | some name =>
    have last := getLast?_beside h ending
    rw [same, h] at last
    have longer := congrArg String.length (Option.some.inj last)
    rw [String.length_append] at longer
    exact he (String.length_eq_zero_iff.1 (by omega))

end Location

end LiveState
