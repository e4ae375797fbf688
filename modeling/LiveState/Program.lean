import LiveState.Arguments
import LiveState.LogFilter
import LiveState.Session.Language

/-!
# The program

One run of the program: it understands its command line, chooses a log filter and the settings
file, makes a context, executes one command, and ends with an exit code.  A run changes nothing
but the files.
-/

namespace LiveState.Program

/-- What a run finds in its environment. -/
structure Surroundings where
  paths : Environment
  logFilter : Option String

structure Result where
  exitCode : Nat
  output : ByteArray
  /-- What was told to the operator, line by line. -/
  log : List String

def versionText : String := "seek 0.1.0\n"

def failureLine (message : String) : String := "Error: " ++ message

def paddedLevel (l : Level) : String :=
  String.ofList (List.replicate (5 - l.name.length) ' ') ++ l.name

def fieldText : String × Notice.FieldValue → String
  | (name, .quoted s) => " " ++ name ++ "=" ++ Text.quoted s
  | (name, .plain s) => " " ++ name ++ "=" ++ s

def logLine (n : Notice) : String :=
  paddedLevel n.level ++ " " ++ n.target ++ ": " ++ n.message ++
    String.join (n.fields.map fieldText)

/-- Without a filter of its own, a run shows warnings and errors. -/
def defaultDirective : Directive := ⟨none, some .warn⟩

/-- Why a run has no log filter. -/
inductive FilterFailure where
  /-- The text on the command line is no filter. -/
  | invalid (text : String)
  /-- The reading of a filter has broken down, after these lines. -/
  | brokenDown (earlier : List String)
  deriving DecidableEq, Repr

/-- The line about a part of a filter that is no directive. -/
def rejectionLine (rejected : String × DirectiveError) : String :=
  "ignoring `" ++ rejected.1 ++ "`: " ++ rejected.2.message

/-- The log filter of a run, and lines about parts of it that are no directives.  A filter on the
    command line must be valid as a whole and replaces that of the environment. -/
def chooseFilter (requested surrounding : Option String) :
    Except FilterFailure (LogFilter × List String) :=
  match requested with
  | some text =>
    match LogFilter.parse text with
    | .ok f => .ok (f, [])
    | .error .splitCharacter => .error (.brokenDown [])
    | .error _ => .error (.invalid text)
  | none =>
    let sifted := LogFilter.sift (LogFilter.parts (surrounding.getD ""))
    let lines := sifted.rejected.map rejectionLine
    if sifted.broken then .error (.brokenDown lines)
    else .ok (sifted.filter defaultDirective, lines)

def invalidFilterMessage (text : String) : String := "invalid log filter '" ++ text ++ "'"

def FilterFailure.result : FilterFailure → Result
  | .invalid text => ⟨1, .empty, [failureLine (invalidFilterMessage text)]⟩
  | .brokenDown earlier => ⟨101, .empty, earlier⟩

/-! ## Notices of a session -/

def occurrenceNotice? {α : Type} : Occurrence α → Option Notice
  | .faulted _ _ => some .subscriberPanicked
  | _ => none

def settingsNotice? {ρ : Type} : Settings.Incident ρ → Option Notice
  | .value o => occurrenceNotice? o
  | .notice n => some n

def registryNotice? {η : Type} : Registry.Incident η → Option Notice
  | .resolved o => occurrenceNotice? o
  | .built _ _ => none
  | .notice n => some n

def notice? {σ τ ρ : Type} : Event σ τ (Session.Incident ρ) → Option Notice
  | .happened (.settings _ i) => settingsNotice? i
  | .happened (.contextSettings _ i) => settingsNotice? i
  | .happened (.contextPanels _ i) => registryNotice? i
  | .happened (.notice n) => some n
  | _ => none

/-! ## Runs -/

/-- The steps of a run: make a context, then execute a command in it. -/
def steps (config : Config) (command : Command) : List (Session.Step UserSettings) :=
  [.bootstrap "" config, .execute "" command none]

/-- What the journal of a run tells the operator: that the session has started is told when the
    context has been made. -/
def notices (config : Config)
    (outcomes : List (Language.Outcome (Session.Step UserSettings) (Session.Reply UserSettings)
      (Session.Incident UserSettings))) : List Notice :=
  match outcomes with
  | [] => []
  | start :: rest =>
    start.events.filterMap notice? ++ [.sessionStarted config.settingsPath] ++
      rest.flatMap fun o => o.events.filterMap notice?

/-- What the last step of a run has written, and the failure of the command. -/
def written (outcomes : List (Language.Outcome (Session.Step UserSettings)
    (Session.Reply UserSettings) (Session.Incident UserSettings))) :
    ByteArray × Option Command.Failure :=
  match outcomes.getLast? with
  | some ⟨.ok (.output bytes failure), _⟩ => (bytes, failure)
  | _ => (.empty, none)

/-- What a run is about to do, once its words and its environment are understood. -/
structure Plan where
  filter : LogFilter
  /-- What the operator is told before anything is done. -/
  earlier : List String
  config : Config
  command : Command

/-- Understand the words and the environment of a run: how it ends at once, or what it is about
    to do.  Without a command it shows the settings. -/
def plan (words : List String) (surroundings : Surroundings) : Except Result Plan :=
  match Arguments.parse words with
  | .error .version => .error ⟨0, versionText.toUTF8, []⟩
  | .error r => .error ⟨r.exitCode, .empty, []⟩
  | .ok invocation =>
    match chooseFilter invocation.log surroundings.logFilter with
    | .error failure => .error failure.result
    | .ok (filter, earlier) =>
      let config := Config.discover invocation.settings surroundings.paths
      .ok ⟨filter, earlier, config, invocation.command.getD .settings⟩

/-- Do what is planned.  All databases are closed at the end. -/
def Plan.execute (p : Plan) (files : FileTree) : Result × FileTree :=
  let (outcomes, w) := Session.run files (steps p.config p.command)
  let left := w.media.files.closeUnneeded fun _ => false
  let shown := (notices p.config outcomes).filter fun n => p.filter.shows n.target n.level
  let log := p.earlier ++ shown.map logLine
  let (output, failure) := written outcomes
  match failure with
  | none => (⟨0, output, log⟩, left)
  | some f => (⟨1, output, log ++ [failureLine f.message]⟩, left)

/-- One run of the program.  Files are touched only if there is a plan. -/
def run (words : List String) (surroundings : Surroundings) (files : FileTree) :
    Result × FileTree :=
  match plan words surroundings with
  | .error result => (result, files)
  | .ok p => p.execute files

end LiveState.Program
