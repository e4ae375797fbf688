import LiveState.Storage.FileTree

/-!
# Databases

How databases are made, opened, changed and closed.

While a database is in use, what is new in it stands in a log beside its file, and the log has an
index beside it; both go when the last connection is closed.  A journal beside a database is left
over from a change that was never finished; it is done away with, unless it was never begun.

A directory that stands in the place of one of these files stays there.  In the place of the
journal or the log it keeps the database from being opened; in the place of the index it keeps a
new one from being made, and an old one from being changed.
-/

namespace LiveState

def Usage.isLogged (u : Usage) : Bool := u.isNew || u.isWritten

/-- Whether the table of a database in use can be reached: its file is as it was left, or what is
    needed of it is in its log. -/
def Usage.isLegible (u : Usage) : Bool := u.cover.isNone || u.isLogged

/-- Whether a database in use takes further connections: its file is as it was left, or nothing of
    it is needed. -/
def Usage.isOpen (u : Usage) : Bool := u.cover.isNone || u.isNew

def Usage.isEmptied (u : Usage) : Bool := u.cover.any fun content => content.size ≤ 1

namespace FileTree

/-! ## Tables -/

def table? (t : FileTree) (l : Location) : Option (OrderedMap String Stored) :=
  match t.node? l with
  | some (.database table) => if (t.usages.get? l).all Usage.isLegible then some table else none
  | _ => none

/-- Whether the database at a location can be read but not changed. -/
def isReadOnly (t : FileTree) (l : Location) : Bool := t.isDirectory l.index

/-- Note that something was written to a database, if it is in use. -/
def noteWriting (t : FileTree) (l : Location) : FileTree :=
  match t.usages.get? l with
  | some u => { t with usages := t.usages.insert l { u with isWritten := true } }
  | none => t

def setTable (t : FileTree) (l : Location) (table : OrderedMap String Stored) : FileTree :=
  (t.put l (.database table)).noteWriting l

@[simp] theorem node?_noteWriting (t : FileTree) (l j : Location) :
    (t.noteWriting l).node? j = t.node? j := by
  unfold noteWriting
  split <;> rfl

theorem isLegible_noteWriting (t : FileTree) (l : Location) :
    ((t.noteWriting l).usages.get? l).all Usage.isLegible = true := by
  unfold noteWriting
  split <;> simp [Usage.isLegible, Usage.isLogged, *]

theorem usages_noteWriting_of_ne {l j : Location} (h : j ≠ l) (t : FileTree) :
    (t.noteWriting l).usages.get? j = t.usages.get? j := by
  unfold noteWriting
  split
  · exact OrderedMap.get?_insert_of_ne h ..
  · rfl

theorem table?_setTable_self {l : Location} (h : l ≠ []) (t : FileTree)
    (table : OrderedMap String Stored) : (t.setTable l table).table? l = some table := by
  simp [table?, setTable, node?_put_self h, isLegible_noteWriting]

theorem table?_setTable_of_ne {l j : Location} (h : j ≠ l) (t : FileTree)
    (table : OrderedMap String Stored) : (t.setTable l table).table? j = t.table? j := by
  simp only [table?, setTable, node?_noteWriting, node?_put_of_ne h, usages_noteWriting_of_ne h]
  rfl

/-! ## What stands in the place of a database, and beside it -/

/-- Whether a new database can be made at a location: nothing is there, or a file of at most one
    byte. -/
def isVacant (t : FileTree) (l : Location) : Bool :=
  match t.node? l with
  | none => t.isDirectory l.dropLast
  | some (.file content) => content.size ≤ 1
  | some _ => false

/-- Whether there is a file at a location whose first byte is as asked for.  That of a database
    is a letter. -/
def begins (t : FileTree) (l : Location) (p : UInt8 → Bool) : Bool :=
  match t.node? l with
  | some (.file content) => (content.data[0]?).any p
  | some (.database _) | some .foreignDatabase => true
  | some .directory | none => false

/-- Whether there is a journal beside a database that was begun. -/
def hasJournal (t : FileTree) (l : Location) : Bool := t.begins l.journal (· != 0)

/-- Take away the file at a location, if its first byte is as asked for. -/
def discard (t : FileTree) (l : Location) (p : UInt8 → Bool) : FileTree :=
  if t.begins l p then t.remove l else t

/-- Do away with a journal that was begun. -/
def dropJournal (t : FileTree) (l : Location) : FileTree := t.discard l.journal (· != 0)

def hasLog (t : FileTree) (l : Location) : Bool := t.begins l.log fun _ => true

def dropLog (t : FileTree) (l : Location) : FileTree := t.discard l.log fun _ => true

/-- Do away with what stands beside a file that is no database.  A log is looked into with its
    index only. -/
def sweep (t : FileTree) (l : Location) : FileTree :=
  if t.isDirectory l.journal then t
  else
    let t := t.dropJournal l
    if t.hasLog l && !t.isReadOnly l then (t.remove l.log).remove l.index else t

def touch (t : FileTree) (l : Location) : FileTree :=
  if (t.node? l).isNone then t.put l (.file .empty) else t

/-- Make way for a new database, and tell whether it can be made.  If it cannot, an empty file
    stands in its place. -/
def clear (t : FileTree) (l : Location) : FileTree × Bool :=
  if !l.hasRoom then (t.touch l, false)
  else
    let t := (t.discard l.journal fun _ => true).dropLog l
    if t.isDirectory l.journal || t.isDirectory l.log then (t.touch l, false)
    else (t.remove l.journal, true)

/-! ## Connections -/

/-- What stands in the files of a database in use.  Nothing is told from it but that the files are
    not vacant. -/
def pages : ByteArray := ⟨#[1, 1]⟩

/-- Begin to use a database. -/
def enlist (t : FileTree) (l : Location) (isNew : Bool) : FileTree :=
  let t := t.put l.log (.file pages)
  let t := if t.isReadOnly l then t else t.put l.index (.file pages)
  { t with usages := t.usages.insert l ⟨isNew, false, none⟩ }

/-- Make a database where there is a vacancy, and connect to it.  If there is no place for the index
    it is never finished, and what there is of it is no database. -/
def create (t : FileTree) (l : Location) : FileTree × Option Location :=
  let (t, isClear) := t.clear l
  if !isClear then (t, none)
  else if t.isReadOnly l then ((t.put l (.file pages)).put l.log (.file .empty), none)
  else ((t.put l (.database .empty)).enlist l true, some l)

/-- Connect to a database in use.  Where as good as nothing was written over its file, what stands
    beside it is taken for the remains of another one. -/
def join (t : FileTree) (l : Location) (u : Usage) : FileTree × Option Location :=
  if u.isEmptied then
    let t := t.discard l.journal fun _ => true
    (if u.isLogged then t.dropLog l else t, none)
  else
    let isFree := t.hasLog l && !t.hasJournal l && !t.isDirectory l.journal
    (t, if u.isOpen && isFree then some l else none)

def connect (t : FileTree) (l : Location) : FileTree × Option Location :=
  match t.usages.get? l with
  | some u => t.join l u
  | none =>
    if t.isDirectory l.journal then (t, none)
    else
      let t := t.dropJournal l
      if t.isDirectory l.log then (t, none) else (t.enlist l false, some l)

/-- Open the database at a path; a new one is made where there is a vacancy. -/
def openDatabase (t : FileTree) (path : String) : FileTree × Option Location :=
  let l := Location.resolve t.cwd path
  if !Location.isAddressable t.cwd path then (t, none)
  else if t.isVacant l then t.create l
  else
    match t.node? l with
    | some (.database _) | some .foreignDatabase => t.connect l
    | some (.file _) => (t.sweep l, none)
    | some .directory | none => (t, none)

/-- Bring the file of a database up to date with its log.  What somebody else has written over it
    is lost if the log holds all of the database; else it stays, with what was written to the
    database behind it. -/
def upToDate (t : FileTree) (l : Location) (u : Usage) : FileTree :=
  match u.cover with
  | none => t
  | some content =>
    if u.isNew then t
    else if u.isWritten then t.put l (.file (content ++ pages))
    else t.put l (.file content)

/-- Close the last connection to a database.  Without an index, an empty log stays. -/
def closeDatabase (t : FileTree) (l : Location) : FileTree :=
  match t.usages.get? l with
  | none => t
  | some u =>
    let t := { t.upToDate l u with usages := t.usages.erase l }
    if t.isReadOnly l then t.put l.log (.file .empty)
    else (t.dropLog l).discard l.index fun _ => true

/-- Close the databases in use, other than those that are needed. -/
def closeUnneeded (t : FileTree) (isNeeded : Location → Bool) : FileTree :=
  (t.usages.keys.filter fun l => !isNeeded l).foldl closeDatabase t

/-! ## Changes from outside -/

/-- Change the database at a path from outside.  Where there is a vacancy a new one is made, which
    takes no log. -/
def alter (t : FileTree) (path : String) (f : Node → Node) : FileTree :=
  let l := Location.resolve t.cwd path
  if Location.isAddressable t.cwd path && t.isVacant l then
    let (t, isClear) := t.clear l
    if isClear then t.put l (f (.database .empty)) else t
  else
    let (opened, location) := t.openDatabase path
    match location.bind opened.node? with
    | none => opened
    | some node =>
      let altered :=
        if opened.isReadOnly l then opened else (opened.put l (f node)).noteWriting l
      if t.usages.contains l then altered else altered.closeDatabase l

def putText (t : FileTree) (path key text : String) : FileTree :=
  t.alter path fun
    | .database table => .database (table.insert key (.text text))
    | node => node

def makeForeign (t : FileTree) (path : String) : FileTree :=
  t.alter path fun _ => .foreignDatabase

end FileTree

end LiveState
