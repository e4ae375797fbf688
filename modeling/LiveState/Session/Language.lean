import LiveState.Session.Site

/-!
# Sessions

What each step of a session does, and runs of whole sessions.  A context is made on a medium, or
from a configuration; if the configured medium cannot be opened the session goes on without one.

The budget of a run is the weight of its steps, as for scenarios on observables.
-/

namespace LiveState.Session

variable {ρ : Type} [Inhabited ρ] [Settings.Record ρ]

/-- Load a record from a medium; the result is its number. -/
def loadRecord (nested : Nested (World ρ) (Step ρ)) (access : Access) (key : String)
    (default : ρ) : Act (World ρ) Nat :=
  Settings.load nested access.store (fun n => World.note (.notice n))
    (fun s => do
      let i ← Act.view (·.records.size)
      modify fun w => { w with records := w.records.push ⟨s, access⟩ }
      return i)
    (recordSite access) key default

/-- The key under which contexts keep their settings. -/
def settingsKey : String := "user_config"

/-- Make a context on a medium; the result is its number. -/
def makeContext (nested : Nested (World ρ) (Step ρ)) (access : Access) :
    Act (World ρ) Nat :=
  Settings.load nested access.store (fun n => World.note (.notice n))
    (fun s => do
      let i ← Act.view (·.contexts.size)
      modify fun w => { w with contexts := w.contexts.push ⟨.new .panels, ⟨s, access⟩⟩ }
      return i)
    (contextSettingsSite access) settingsKey UserSettings.initial

/-- Make a context from a configuration.  Without a medium it runs on defaults that are not
    kept. -/
def bootstrap (nested : Nested (World ρ) (Step ρ)) (config : Config) : Act (World ρ) Nat := do
  let (result, media) ← Act.view fun w => w.media.openDatabase config.settingsPath
  modify fun w => { w with media := media }
  match result with
  | .ok medium => makeContext nested ⟨medium, none⟩
  | .error e =>
    modify (World.note (.notice (.storageNotOpened config.settingsPath e)))
    makeContext nested ⟨.disabled, none⟩

def withRecord (name : String) (f : Nat → Act (World ρ) (Reply ρ)) :
    Act (World ρ) (Reply ρ) := do
  match ← Act.view (·.recordNames.get? name) with
  | none => return .missing
  | some i => f i

def withContext (name : String) (f : Nat → Act (World ρ) (Reply ρ)) :
    Act (World ρ) (Reply ρ) := do
  match ← Act.view (·.contextNames.get? name) with
  | none => return .missing
  | some i => f i

def askSubscription (name : String) (request : Subscription.Request) :
    Act (World ρ) Subscription.Answer := do
  let forget (w : World ρ) : World ρ := { w with subscriptions := w.subscriptions.erase name }
  match ← Act.view (·.subscriptions.get? name) with
  | none => return .missing
  | some (.settings i, id) =>
    request.perform (recordSite ⟨.disabled, none⟩ i).value id forget
  | some (.contextSettings i, id) =>
    request.perform (contextSettingsSite ⟨.disabled, none⟩ i).value id forget
  | some (.contextPanels i, id) =>
    request.perform (contextPanelsSite i).resolved id forget

variable [Text.Describe ρ]

def perform (nested : Nested (World ρ) (Step ρ)) : Step ρ → Act (World ρ) (Reply ρ)
  | .subscription name request => .subscription <$> askSubscription name request
  | .panic => Act.panic
  | .file step => step.perform
  | .medium name step => step.perform name
  | .load name storage key default => withMedium storage fun medium => do
    let i ← loadRecord nested ⟨medium, some storage⟩ key default
    modify fun w => World.settle { w with recordNames := w.recordNames.insert name i }
    .loaded <$> Act.view fun w => (w.records.getD i .blank).settings.value.value
  | .settings name action => withRecord name fun i => do
    let access ← Act.view (·.recordAccess i)
    .settings <$> action.perform (recordSite access i) nested (World.enrol (.settings i))
  | .context name storage => withMedium storage fun medium => do
    let i ← makeContext nested ⟨medium, some storage⟩
    modify fun w => World.settle { w with contextNames := w.contextNames.insert name i }
    return .done
  | .bootstrap name config => do
    let i ← bootstrap nested config
    modify fun w => World.settle { w with contextNames := w.contextNames.insert name i }
    return .done
  | .drop name => do
    modify fun w => World.settle
      { w with
        recordNames := w.recordNames.erase name
        contextNames := w.contextNames.erase name }
    return .done
  | .contextSettings name action => withContext name fun i => do
    let access ← Act.view (·.contextAccess i)
    .contextSettings <$>
      action.perform (contextSettingsSite access i) nested (World.enrol (.contextSettings i))
  | .contextPanels name action => withContext name fun i => do
    .contextPanels <$>
      action.perform (contextPanelsSite i) nested (World.enrol (.contextPanels i))
  | .describe name pretty => withContext name fun i => do
    let d ← Act.view fun w => Text.describe (w.contexts.getD i .blank)
    return .text (d.render pretty)
  | .execute name command room => withContext name fun i => do
    let access ← Act.view (·.contextAccess i)
    let written := command.write (contextPanelsSite i) (contextSettingsSite access i) nested
    let (taken, failure) ← written.through room
    return .output taken failure

def language (ρ : Type) [Inhabited ρ] [Settings.Record ρ] [Text.Describe ρ] :
    Language (World ρ) (Step ρ) (Reply ρ) (Incident ρ) where
  journal := World.journal
  record := World.record
  perform := perform

def run (files : FileTree)
    (steps : List (Step ρ)) :
    List (Language.Outcome (Step ρ) (Reply ρ) (Incident ρ)) × World ρ :=
  (language ρ).run (stepsWeight steps) steps (World.start files)

end LiveState.Session
