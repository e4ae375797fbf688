import LiveState.Session.Step

/-!
# The world of a session

Media, settings records and contexts, each under a name.  A context joins the panels of a layout
with the settings of a user.

A name that is given again stands for the new thing; the old one lives on for its subscribers.
Records and contexts are therefore kept by number, and the names point to numbers.
-/

namespace LiveState.Session

inductive Incident (ρ : Type) where
  | settings (record : Nat) (i : Settings.Incident ρ)
  | contextSettings (context : Nat) (i : Settings.Incident UserSettings)
  | contextPanels (context : Nat) (i : Registry.Incident Panel)
  /-- A record is about to read from a medium of the given name. -/
  | reading (key storage : String)
  /-- A record is about to write to a medium of the given name. -/
  | writing (key storage : String) (bytes : ByteArray)
  | notice (n : Notice)

/-- A medium in use, with the name under which it was found, if its use is to be shown. -/
structure Access where
  medium : Medium
  shownAs : Option String

/-- A settings record and its medium. -/
structure Kept (σ ρ : Type) where
  settings : Settings σ ρ
  access : Access

/-- The state of an application: its panels and the settings of its user. -/
structure Context (σ : Type) where
  panels : Registry σ Panel
  settings : Kept σ UserSettings

open Text in
instance {σ : Type} : Describe (Context σ) where
  describe c := .record "AppContext"
    [("panels", describe c.panels), ("settings", describe c.settings.settings)]

/-- Where a kept subscription was made. -/
inductive Source where
  | settings (record : Nat)
  | contextSettings (context : Nat)
  | contextPanels (context : Nat)

/-- The world of a session. -/
structure World (ρ : Type) where
  media : Media
  storages : OrderedMap String Medium
  /-- All records and contexts ever made. -/
  records : Array (Kept (Step ρ) ρ)
  contexts : Array (Context (Step ρ))
  recordNames : OrderedMap String Nat
  contextNames : OrderedMap String Nat
  subscriptions : OrderedMap String (Source × Nat)
  journal : Array (Event (Step ρ) (Reply ρ) (Incident ρ))

variable {ρ : Type}

def World.start (files : FileTree) : World ρ :=
  ⟨.ofFiles files, .empty, #[], #[], .empty, .empty, .empty, #[]⟩

namespace World

def record (e : Event (Step ρ) (Reply ρ) (Incident ρ)) (w : World ρ) : World ρ :=
  { w with journal := w.journal.push e }

def note (i : Incident ρ) (w : World ρ) : World ρ := w.record (.happened i)

def enrol (source : Source) (name : String) (id : Nat) (w : World ρ) : World ρ :=
  { w with subscriptions := w.subscriptions.insert name (source, id) }

/-- Whether a medium, record or context that has a name uses the database at a location. -/
def needs (w : World ρ) (l : Location) : Bool :=
  let database := Medium.database l
  w.storages.entries.any (fun e => e.2 = database) ||
    w.recordNames.entries.any (fun e =>
      (w.records[e.2]?).any fun k => k.access.medium = database) ||
    w.contextNames.entries.any fun e =>
      (w.contexts[e.2]?).any fun c => c.settings.access.medium = database

/-- Close the databases that are not needed any more, now that a name is free or stands for
    something new. -/
def settle (w : World ρ) : World ρ :=
  { w with media := { w.media with files := w.media.files.closeUnneeded w.needs } }

end World

def Kept.blank {σ β : Type} [Inhabited β] : Kept σ β :=
  ⟨.new "" default default, ⟨.disabled, none⟩⟩

def Context.blank {σ : Type} : Context σ := ⟨.new .empty, .blank⟩

end LiveState.Session
