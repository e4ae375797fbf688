import LiveState.Registry.Catalog
import LiveState.Settings.Error

/-!
# Notices

What the library tells an operator: a level, the part of the library that speaks, a message and
named fields.
-/

namespace LiveState

inductive Level where
  | error
  | warn
  | info
  | debug
  | trace
  deriving DecidableEq, Repr

namespace Level

/-- Urgent levels come first. -/
def rank : Level → Nat
  | .error => 1
  | .warn => 2
  | .info => 3
  | .debug => 4
  | .trace => 5

def name : Level → String
  | .error => "ERROR"
  | .warn => "WARN"
  | .info => "INFO"
  | .debug => "DEBUG"
  | .trace => "TRACE"

end Level

/-- What an operator may be told. -/
inductive Notice where
  | addingCapability (key : String)
  | rejectedUnknown (key : String)
  | removingCapability (key : String)
  | kindNotInCatalog (kind : PanelKind) (refusal : Registry.Refusal)
  | skippingPanel (refusal : Registry.Refusal)
  | subscriberPanicked
  | fellBackToDefault (key : String) (error : Settings.LoadError)
  | notSerialized (key : String) (error : Settings.ShapeError)
  | notPersisted (key : String) (error : StorageError)
  | keptInMemory (key : String)
  | storageNotOpened (path : String) (error : StorageError)
  | sessionStarted (path : String)

namespace Notice

def level : Notice → Level
  | .subscriberPanicked => .error
  | .kindNotInCatalog _ _ | .fellBackToDefault _ _ | .notSerialized _ _ | .notPersisted _ _
  | .storageNotOpened _ _ => .warn
  | .addingCapability _ | .rejectedUnknown _ | .removingCapability _ | .skippingPanel _
  | .sessionStarted _ => .debug
  | .keptInMemory _ => .trace

/-- The part of the program that speaks. -/
def target : Notice → String
  | .addingCapability _ | .rejectedUnknown _ | .removingCapability _ => "seek_core::registry"
  | .kindNotInCatalog _ _ => "seek_core::panels"
  | .skippingPanel _ => "seek::commands"
  | .subscriberPanicked => "seek_core::observable"
  | .fellBackToDefault _ _ | .notSerialized _ _ | .notPersisted _ _ | .keptInMemory _ =>
    "seek_core::settings"
  | .storageNotOpened _ _ => "seek_core::context"
  | .sessionStarted _ => "seek"

def message : Notice → String
  | .addingCapability _ => "adding capability"
  | .rejectedUnknown _ => "rejected unknown capability"
  | .removingCapability _ => "removing capability"
  | .kindNotInCatalog _ _ => "panel kind missing from catalog"
  | .skippingPanel _ => "skipping panel"
  | .subscriberPanicked =>
    "observable subscriber panicked; remaining subscribers still notified"
  | .fellBackToDefault _ _ => "falling back to default settings"
  | .notSerialized _ _ => "failed to serialize settings"
  | .notPersisted _ _ => "failed to persist settings"
  | .keptInMemory _ => "storage unavailable; settings kept in memory"
  | .storageNotOpened _ _ => "settings storage unavailable; changes will not persist"
  | .sessionStarted _ => "session started"

/-- The value of a field: a text that is shown in quotes, or one that is shown as it is. -/
inductive FieldValue where
  | quoted (s : String)
  | plain (s : String)

def FieldValue.text : FieldValue → String
  | .quoted s | .plain s => s

def fields : Notice → List (String × FieldValue)
  | .addingCapability key | .rejectedUnknown key | .removingCapability key | .keptInMemory key =>
    [("key", .quoted key)]
  | .kindNotInCatalog kind e => [("kind", .quoted kind.name), ("error", .plain e.message)]
  | .skippingPanel e => [("error", .plain e.message)]
  | .subscriberPanicked => []
  | .fellBackToDefault key e => [("key", .quoted key), ("error", .plain e.message)]
  | .notSerialized key e => [("key", .quoted key), ("error", .plain e.message)]
  | .notPersisted key e => [("key", .quoted key), ("error", .plain e.message)]
  | .storageNotOpened path e => [("path", .plain path), ("error", .plain e.message)]
  | .sessionStarted path => [("settings", .plain path)]

end Notice

end LiveState
