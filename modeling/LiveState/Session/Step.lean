import LiveState.Command
import LiveState.Config
import LiveState.Storage.Media
import LiveState.Subscription

/-!
# Steps of a session

What can be done in a session, what is answered, and how many further steps a step may set off.
The things of a session, its media, settings records and contexts, go by names.
-/

namespace LiveState.Session

inductive Opening where
  | memory (entries : List (String × ByteArray))
  /-- A further user of the medium that is kept under a name. -/
  | share (name : String)
  | disabled
  | privateDatabase
  | database (path : String)
  | switched (entries : List (String × ByteArray)) (switches : Switches)

inductive FileStep where
  | makeDirectories (path : String)
  | write (path : String) (content : ByteArray)
  | status (path : String)
  | putText (path key text : String)
  /-- Make a database whose table has other columns. -/
  | makeForeign (path : String)

inductive MediumStep where
  | openAs (opening : Opening)
  /-- Forget the name of a medium; those who use it keep it. -/
  | close
  | turn (reads writes : Option FaultMode)
  | read (key : String)
  | write (key : String) (bytes : ByteArray)

/-- A step of a session with settings of type `ρ`. -/
inductive Step (ρ : Type) where
  | subscription (name : String) (request : Subscription.Request)
  | panic
  | file (step : FileStep)
  | medium (name : String) (step : MediumStep)
  | load (name storage key : String) (default : ρ)
  | settings (name : String) (action : Settings.Action (Step ρ) ρ)
  | context (name storage : String)
  | bootstrap (name : String) (config : Config)
  /-- Forget the record and the context of a name. -/
  | drop (name : String)
  | contextSettings (name : String) (action : Settings.Action (Step ρ) UserSettings)
  | contextPanels (name : String) (action : Registry.Action (Step ρ) Panel)
  | describe (name : String) (pretty : Bool)
  /-- Execute a command; the writer takes at most `room` bytes. -/
  | execute (name : String) (command : Command) (room : Option Nat)

inductive Reply (ρ : Type) where
  | done
  /-- Nothing of that name is there. -/
  | missing
  | subscription (a : Subscription.Answer)
  | flag (b : Bool)
  | status (s : FileTree.Status)
  | storageError (e : StorageError)
  | bytes (b : Option ByteArray)
  | loaded (v : ρ)
  | settings (a : Settings.Answer ρ)
  | contextSettings (a : Settings.Answer UserSettings)
  | contextPanels (a : Registry.Answer Panel)
  | text (s : String)
  | output (written : ByteArray) (failure : Option Command.Failure)

variable {ρ : Type}

/-! ## Weights -/

mutual

/-- How many steps a step may set off, itself included. -/
def Step.weight : Step ρ → Nat
  | .settings _ (.value action) => 1 + settingsWeight action
  | .contextSettings _ (.value action) => 1 + contextSettingsWeight action
  | .contextPanels _ (.resolved action) => 1 + contextPanelsWeight action
  | _ => 1

def settingsWeight : Observable.Action (Step ρ) ρ → Nat
  | .update _ _ inner | .replaceWith _ _ inner | .borrow inner => stepsWeight inner
  | .subscribe _ rules => settingsRulesWeight rules
  | .get | .version | .describe _ | .set _ => 0

def contextSettingsWeight : Observable.Action (Step ρ) UserSettings → Nat
  | .update _ _ inner | .replaceWith _ _ inner | .borrow inner => stepsWeight inner
  | .subscribe _ rules => contextSettingsRulesWeight rules
  | .get | .version | .describe _ | .set _ => 0

def contextPanelsWeight : Observable.Action (Step ρ) (Resolved Panel) → Nat
  | .update _ _ inner | .replaceWith _ _ inner | .borrow inner => stepsWeight inner
  | .subscribe _ rules => contextPanelsRulesWeight rules
  | .get | .version | .describe _ | .set _ => 0

def stepsWeight : List (Step ρ) → Nat
  | [] => 0
  | s :: rest => s.weight + stepsWeight rest

def settingsRulesWeight : List (Rule (Step ρ) ρ) → Nat
  | [] => 0
  | r :: rest => settingsRuleWeight r + settingsRulesWeight rest

/-- A rule may run its body as often as it may fire. -/
def settingsRuleWeight : Rule (Step ρ) ρ → Nat
  | ⟨_, remaining, body⟩ => remaining * stepsWeight body

def contextSettingsRulesWeight : List (Rule (Step ρ) UserSettings) → Nat
  | [] => 0
  | r :: rest => contextSettingsRuleWeight r + contextSettingsRulesWeight rest

def contextSettingsRuleWeight : Rule (Step ρ) UserSettings → Nat
  | ⟨_, remaining, body⟩ => remaining * stepsWeight body

def contextPanelsRulesWeight : List (Rule (Step ρ) (Resolved Panel)) → Nat
  | [] => 0
  | r :: rest => contextPanelsRuleWeight r + contextPanelsRulesWeight rest

def contextPanelsRuleWeight : Rule (Step ρ) (Resolved Panel) → Nat
  | ⟨_, remaining, body⟩ => remaining * stepsWeight body

end

end LiveState.Session
