import LiveState.Command

/-!
# Arguments

How the words of a command line are understood: two options that may stand anywhere, and one
command with its own words.  The words are taken from left to right by a machine whose state
holds what has been understood so far; the first word that cannot be understood decides how the
command line is rejected.

The value of the latest option, or of the latest word that is no option, is checked only when
something else begins or the words end.  Until then it is *pending*, and a word that makes no
sense at all is reported before it.
-/

namespace LiveState.Arguments

/-- Why a command line is not run. -/
inductive Rejection where
  | unknownArgument
  | invalidSubcommand
  /-- An option lacks its value, or a path is empty. -/
  | invalidValue
  | valueValidation
  | argumentConflict
  | tooManyValues
  | missingRequiredArgument
  | help
  | version
  deriving DecidableEq, Repr

/-- The exit code of a rejected command line: asking for help or the version is no error. -/
def Rejection.exitCode : Rejection → Nat
  | .help | .version => 0
  | _ => 2

inductive Verb where
  | settings
  | setLimit
  | reset
  | panels
  deriving DecidableEq, Repr

def Verb.ofName? (s : String) : Option Verb :=
  if s = "settings" then some .settings
  else if s = "set-limit" then some .setLimit
  else if s = "reset" then some .reset
  else if s = "panels" then some .panels
  else none

inductive Flag where
  | settings
  | log
  deriving DecidableEq, Repr

def Flag.ofName? (s : String) : Option Flag :=
  if s = "settings" then some .settings
  else if s = "log" then some .log
  else none

/-! ## Words -/

inductive Word where
  /-- Two hyphens: all later words are plain. -/
  | escape
  /-- Two hyphens and a name, and what follows the first equals sign. -/
  | long (name : String) (value : Option String)
  /-- One hyphen and letters, of which the first one decides. -/
  | short (letter : Char)
  | plain (text : String)
  deriving DecidableEq, Repr

def cutAtEquals (s : List Char) : List Char × Option (List Char) :=
  match s.dropWhile (· != '=') with
  | [] => (s, none)
  | _ :: value => (s.takeWhile (· != '='), some value)

/-- What a word looks like.  A hyphen alone is plain. -/
def Word.ofString (s : String) : Word :=
  match s.toList with
  | ['-', '-'] => .escape
  | '-' :: '-' :: rest =>
    let (name, value) := cutAtEquals rest
    .long (String.ofList name) (value.map String.ofList)
  | '-' :: c :: _ => .short c
  | _ => .plain s

def decimal? (ds : List Char) : Option Nat :=
  if ds.isEmpty || !ds.all (fun c => decide ('0' ≤ c) && decide (c ≤ '9')) then none
  else some (ds.foldl (fun n c => n * 10 + (c.toNat - '0'.toNat)) 0)

/-- A count: digits, with a sign before them or none, for a number of 32 bits.  A minus sign is
    possible before zeros only. -/
def count? (s : String) : Option UInt32 := do
  let n ← match s.toList with
    | '+' :: ds => decimal? ds
    | '-' :: ds => (decimal? ds).filter (· == 0)
    | ds => decimal? ds
  if n < UInt32.size then some (UInt32.ofNat n) else none

/-! ## Levels -/

inductive Pending where
  | nothing
  /-- An option, and its value if that has come. -/
  | flag (f : Flag) (value : Option String)
  | words (ws : List String)
  deriving DecidableEq, Repr

/-- What has been understood at one level: before the command (`verb` is `none`) or after it. -/
structure Level where
  verb : Option Verb
  settings : Option String
  log : Option String
  count : Option UInt32
  kinds : List String
  pending : Pending
  /-- Whether two hyphens have been passed. -/
  escaped : Bool
  deriving DecidableEq, Repr

namespace Level

def start (verb : Option Verb) : Level := ⟨verb, none, none, none, [], .nothing, false⟩

def give (l : Level) (f : Flag) (value : String) : Except Rejection Level :=
  match f with
  | .settings =>
    if l.settings.isSome then .error .argumentConflict
    else if value.isEmpty then .error .invalidValue
    else .ok { l with settings := some value }
  | .log =>
    if l.log.isSome then .error .argumentConflict
    else .ok { l with log := some value }

/-- Check what is pending, and take it over. -/
def settle (l : Level) : Except Rejection Level :=
  let rest := { l with pending := .nothing }
  match l.pending with
  | .nothing => .ok l
  | .flag _ none => .error .invalidValue
  | .flag f (some value) => rest.give f value
  | .words ws =>
    match l.verb, ws with
    | some .setLimit, [w] =>
      match count? w with
      | some n => .ok { rest with count := some n }
      | none => .error .valueValidation
    | _, ws => .ok { rest with kinds := l.kinds ++ ws }

def hasWord (l : Level) : Bool :=
  l.count.isSome ||
    match l.pending with
    | .words _ => true
    | _ => false

/-- A word that is no option and no value of one. -/
def word (l : Level) (w : String) : Except Rejection Level :=
  match l.verb with
  | none =>
    if l.escaped && ((Verb.ofName? w).isSome || w == "help") then .error .unknownArgument
    else .error .invalidSubcommand
  | some .settings | some .reset => .error .unknownArgument
  | some .setLimit =>
    if l.hasWord then .error .unknownArgument
    else do
      let l ← l.settle
      return { l with pending := .words [w] }
  | some .panels =>
    match l.pending with
    | .words ws => .ok { l with pending := .words (ws ++ [w]) }
    | _ => do
      let l ← l.settle
      return { l with pending := .words [w] }

/-- Help or the version is asked for; what is pending is checked first. -/
def ask {β : Type} (l : Level) (r : Rejection) : Except Rejection β := do
  let _ ← l.settle
  throw r

def long (l : Level) (name : String) (value : Option String) : Except Rejection Level :=
  match Flag.ofName? name with
  | some f => do
    let l ← l.settle
    match value with
    | some v => l.give f v
    | none => return { l with pending := .flag f none }
  | none =>
    if name = "help" ∨ (name = "version" ∧ l.verb = none) then
      if value.isSome then .error .tooManyValues
      else l.ask (if name = "help" then .help else .version)
    else .error .unknownArgument

def short (l : Level) (letter : Char) : Except Rejection Level :=
  if letter = 'h' then l.ask .help
  else if letter = 'V' ∧ l.verb = none then l.ask .version
  else .error .unknownArgument

def awaiting (l : Level) : Option Flag :=
  match l.pending with
  | .flag f none => some f
  | _ => none

def take (l : Level) (w : String) : Except Rejection Level :=
  if l.escaped then l.word w
  else
    match Word.ofString w with
    | .escape => .ok { l with escaped := true }
    | .long name value => l.long name value
    | .short letter => l.short letter
    | .plain text =>
      match l.awaiting with
      | some f => .ok { l with pending := .flag f (some text) }
      | none => l.word text

end Level

/-! ## Command lines -/

inductive State where
  | before (top : Level)
  /-- After the word `help`; a command may be named to ask about. -/
  | helping (named : Bool)
  | inside (top sub : Level)
  deriving DecidableEq, Repr

def Level.mayBeCommand (l : Level) : Bool := !l.escaped && l.awaiting.isNone

def State.take : State → String → Except Rejection State
  | .before top, w =>
    if top.mayBeCommand && w == "help" then .ok (.helping false)
    else
      match (Verb.ofName? w).filter (fun _ => top.mayBeCommand) with
      | some verb => .ok (.inside top (.start (some verb)))
      | none => .before <$> top.take w
  | .helping named, w =>
    if !named && ((Verb.ofName? w).isSome || w == "help") then .ok (.helping true)
    else .error .invalidSubcommand
  | .inside top sub, w => .inside top <$> sub.take w

structure Invocation where
  settings : Option String
  log : Option String
  command : Option Command
  deriving DecidableEq, Repr

def Level.command (l : Level) : Except Rejection (Option Command) :=
  match l.verb with
  | none => .ok none
  | some .settings => .ok (some .settings)
  | some .reset => .ok (some .reset)
  | some .panels => .ok (some (.panels l.kinds))
  | some .setLimit =>
    match l.count with
    | some n => .ok (some (.setLimit n))
    | none => .error .missingRequiredArgument

/-- The words have ended.  The level of the command is completed first; its options count before
    those that stand before the command. -/
def State.finish : State → Except Rejection Invocation
  | .before top => do
    let top ← top.settle
    return ⟨top.settings, top.log, none⟩
  | .helping _ => .error .help
  | .inside top sub => do
    let sub ← sub.settle
    let command ← sub.command
    let top ← top.settle
    return ⟨sub.settings <|> top.settings, sub.log <|> top.log, command⟩

def parse (words : List String) : Except Rejection Invocation := do
  let state ← words.foldlM State.take (.before (.start none))
  state.finish

end LiveState.Arguments
