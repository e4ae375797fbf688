import LiveState.Session.World

/-!
# Media and files of a session

How a session opens, reads and writes its media, and what may be done to its files from outside.
-/

namespace LiveState.Session

variable {ρ : Type}

/-- Turn the response of a medium into the course of an action. -/
def respond {α : Type} : Response α → Act (World ρ) (Except StorageError α)
  | .answered a => return .ok a
  | .failed e => return .error e
  | .panicked => Act.panic

def readMedium (medium : Medium) (key : String) :
    Act (World ρ) (Except StorageError (Option ByteArray)) := do
  respond (← Act.view fun w => w.media.read medium key)

def writeMedium (medium : Medium) (key : String) (bytes : ByteArray) :
    Act (World ρ) (Except StorageError Unit) := do
  let (response, media) ← Act.view fun w => w.media.write medium key bytes
  modify fun w => { w with media := media }
  respond response

/-- The use of a medium by a record.  If it is to be shown, it is noted before it begins. -/
def Access.store (a : Access) : Settings.Store (World ρ) where
  read key := do
    if let some name := a.shownAs then modify (World.note (.reading key name))
    readMedium a.medium key
  write key bytes := do
    if let some name := a.shownAs then modify (World.note (.writing key name bytes))
    writeMedium a.medium key bytes

def openMedium : Opening → Act (World ρ) (Option (Except StorageError Medium))
  | .memory entries => do
    let (medium, media) ← Act.view fun w => w.media.newRegion (.ofList entries)
    modify fun w => { w with media := media }
    return some (.ok medium)
  | .share name => do
    let medium ← Act.view (·.storages.get? name)
    return medium.map .ok
  | .disabled => return some (.ok .disabled)
  | .privateDatabase => do
    let (medium, media) ← Act.view fun w => w.media.newRegion .empty
    modify fun w => { w with media := media }
    return some (.ok medium)
  | .database path => do
    let (result, media) ← Act.view fun w => w.media.openDatabase path
    modify fun w => { w with media := media }
    return some result
  | .switched entries switches => do
    let (medium, media) ← Act.view fun w => w.media.newSwitched (.ofList entries) switches
    modify fun w => { w with media := media }
    return some (.ok medium)

def keepMedium (name : String) (medium : Medium) : Act (World ρ) Unit :=
  modify fun w => World.settle { w with storages := w.storages.insert name medium }

def withMedium (name : String) (f : Medium → Act (World ρ) (Reply ρ)) :
    Act (World ρ) (Reply ρ) := do
  match ← Act.view (·.storages.get? name) with
  | none => return .missing
  | some medium => f medium

def MediumStep.perform (name : String) : MediumStep → Act (World ρ) (Reply ρ)
  | .openAs opening => do
    match ← openMedium opening with
    | none => return .missing
    | some (.error e) => return .storageError e
    | some (.ok medium) =>
      keepMedium name medium
      return .done
  | .close => do
    modify fun w => World.settle { w with storages := w.storages.erase name }
    return .done
  | .turn reads writes => withMedium name fun medium => do
    modify fun w => { w with media := w.media.turn medium reads writes }
    return .done
  | .read key => withMedium name fun medium => do
    match ← readMedium medium key with
    | .error e => return .storageError e
    | .ok bytes => return .bytes bytes
  | .write key bytes => withMedium name fun medium => do
    match ← writeMedium medium key bytes with
    | .error e => return .storageError e
    | .ok () => return .done

def setFiles (files : FileTree) : Act (World ρ) Unit :=
  modify fun w => { w with media := { w.media with files := files } }

def FileStep.perform : FileStep → Act (World ρ) (Reply ρ)
  | .makeDirectories path => do
    let (files, made) ← Act.view (·.media.files.makeDirectories path)
    setFiles files
    return .flag made
  | .write path content => do
    match ← Act.view (·.media.files.writeFile path content) with
    | some files =>
      setFiles files
      return .flag true
    | none => return .flag false
  | .status path => .status <$> Act.view (·.media.files.status path)
  | .putText path key text => do
    setFiles (← Act.view (·.media.files.putText path key text))
    return .done
  | .makeForeign path => do
    setFiles (← Act.view (·.media.files.makeForeign path))
    return .done

end LiveState.Session
