import LiveState.Notice
import LiveState.Observable.Action
import LiveState.Settings.Record

/-!
# Persisted settings

A settings record is an observable value that is kept on a medium under a key.  Its first
subscriber, which is never unsubscribed, writes every new value back before anybody else hears of
it.  A write that fails is noted and changes nothing else: the value in memory counts.

Loading reads the record, or takes the default if nothing usable is stored.  The subscriber that
writes back is registered last, so that a record that was read is written back at once in its
present shape; but after a fallback the first writing back is left out, so that what cannot be
read stays as it is until the first change.
-/

namespace LiveState

/-- A settings record of type `ρ`; the scripts of its subscribers consist of steps of type `σ`. -/
structure Settings (σ ρ : Type) where
  key : String
  default : ρ
  value : Observable ρ (Listener σ ρ)

namespace Settings

variable {σ ρ : Type}

def new (key : String) (default value : ρ) : Settings σ ρ := ⟨key, default, .new value⟩

open Text in
instance [Describe ρ] : Describe (Settings σ ρ) where
  describe s := .record "PersistedSettings" [("key", .text s.key), ("value", describe s.value)]

inductive Incident (ρ : Type) where
  | value (o : Occurrence ρ)
  | notice (n : Notice)

/-- How the medium of a record is read and written. -/
structure Store (W : Type) where
  read : String → Act W (Except StorageError (Option ByteArray))
  write : String → ByteArray → Act W (Except StorageError Unit)

/-- How a world of type `W` holds a settings record and its medium, and where it notes what
    happens to the record. -/
structure Site (W σ ρ : Type) where
  settings : W → Settings σ ρ
  adjust : (Settings σ ρ → Settings σ ρ) → W → W
  note : Incident ρ → W → W
  store : Store W

/-- Read the record under a key: the default if nothing is stored or the stored bytes are none,
    else what the bytes stand for. -/
def readRecord {W : Type} [Record ρ] (store : Store W) (key : String) (default : ρ) :
    Act W (Except LoadError ρ) := do
  match ← store.read key with
  | .error e => return .error (.unreadable e)
  | .ok none => return .ok default
  | .ok (some bytes) => return if bytes.isEmpty then .ok default else decode default bytes

namespace Site

variable {W : Type} (s : Site W σ ρ)

def value : Place W ρ (Listener σ ρ) where
  cell w := (s.settings w).value
  adjust f := s.adjust fun r => { r with value := f r.value }
  note o := s.note (.value o)

def look {β : Type} (f : Settings σ ρ → β) : Act W β := Act.view fun w => f (s.settings w)

def tell (n : Notice) : Act W Unit := modify (s.note (.notice n))

variable [Record ρ]

/-- Write a value back to the medium. -/
def writeBack (v : ρ) : Act W Unit := do
  let key ← s.look (·.key)
  match encode v with
  | .error e => s.tell (.notSerialized key e)
  | .ok bytes =>
    match ← s.store.write key bytes with
    | .ok () => pure ()
    | .error .unavailable => s.tell (.keptInMemory key)
    | .error e => s.tell (.notPersisted key e)

def call (nested : Nested W σ) : Nat → Listener σ ρ → ρ → Act W Unit :=
  Listener.hear s.value nested.act s.writeBack

/-- Start keeping a record on its medium. -/
def keep (nested : Nested W σ) (skipFirst : Bool) : Act W Unit := do
  let _ ← s.value.subscribe (s.call nested) (.keeper skipFirst)

def reset (nested : Nested W σ) : Act W Unit := do
  let d ← s.look (·.default)
  s.value.set (s.call nested) d

end Site

/-- Load the record under a key: read it, let `install` put it into the world, and start
    keeping it.  `site` says where the installed record is; the result is its place. -/
def load {W ι : Type} [Record ρ] (nested : Nested W σ) (store : Store W) (tell : Notice → W → W)
    (install : Settings σ ρ → Act W ι) (site : ι → Site W σ ρ) (key : String) (default : ρ) :
    Act W ι := do
  match ← readRecord store key default with
  | .ok v =>
    let i ← install (.new key default v)
    (site i).keep nested false
    return i
  | .error e =>
    modify (tell (.fellBackToDefault key e))
    let i ← install (.new key default default)
    (site i).keep nested true
    return i

/-- An action on a settings record; `σ` is the type of the steps that it may contain. -/
inductive Action (σ ρ : Type) where
  | value (action : Observable.Action σ ρ)
  | reset
  | key
  | default
  | describe (pretty : Bool)

inductive Answer (ρ : Type) where
  | value (a : Observable.Answer ρ)
  | done
  | text (s : String)
  | default (v : ρ)

/-- Perform an action on the record at a site.  `enrol` keeps a new subscription under its
    name. -/
def Action.perform {W : Type} [Record ρ] [Text.Describe ρ] (s : Site W σ ρ) (nested : Nested W σ)
    (enrol : String → Nat → W → W) : Action σ ρ → Act W (Answer ρ)
  | .value action => .value <$> action.perform s.value nested s.writeBack enrol
  | .reset => do
    s.reset nested
    return .done
  | .key => .text <$> s.look (·.key)
  | .default => .default <$> s.look (·.default)
  | .describe pretty => do
    let d ← s.look Text.describe
    return .text (d.render pretty)

end Settings

end LiveState
