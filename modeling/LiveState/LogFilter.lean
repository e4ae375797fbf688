import LiveState.Notice
import LiveState.Text.Alphanumeric
import LiveState.Text.Bytes

/-!
# Log filters

Which notices are shown.  A filter is a list of directives separated by commas; a directive names
a level, or a target, or a target and its level.  Of the directives whose target begins the target
of a notice, the one with the longest target decides; a notice that no directive applies to is
not shown.
-/

namespace LiveState

/-- One directive.  Without a target it applies to all notices; without a level it shows
    none. -/
structure Directive where
  target : Option String
  level : Option Level
  deriving DecidableEq, Repr

inductive DirectiveError where
  | malformed
  | unknownLevel
  /-- One of its parts would begin or end inside a character. -/
  | splitCharacter
  deriving DecidableEq, Repr

def DirectiveError.message : DirectiveError → String
  | .malformed => "invalid filter directive"
  | .unknownLevel =>
    "error parsing level filter: expected one of \"off\", \"error\", \"warn\", \"info\", " ++
      "\"debug\", \"trace\", or a number 0-5"
  | .splitCharacter => "a part ends inside a character"

namespace Directive

/-- The levels by their numbers; 0 shows nothing. -/
def levels : List (Option Level) :=
  [none, some .error, some .warn, some .info, some .debug, some .trace]

/-- The number that digits stand for; a plus sign may stand before them. -/
def number? (s : List Char) : Option Nat :=
  let ds := match s with
    | '+' :: ds => ds
    | ds => ds
  if ds.isEmpty || !ds.all Char.isDigit then none
  else some (ds.foldl (fun n c => n * 10 + (c.toNat - '0'.toNat)) 0)

/-- A level by its number, or by its name in any case. -/
def level? (s : List Char) : Option (Option Level) :=
  match (number? s).bind (levels[·]?) with
  | some l => some l
  | none =>
    let name := String.ofList (s.map Char.toLower)
    if name = "off" then some none
    else if name = "error" then some (some .error)
    else if name = "warn" then some (some .warn)
    else if name = "info" then some (some .info)
    else if name = "debug" then some (some .debug)
    else if name = "trace" then some (some .trace)
    else none

def mayBegin (c : Char) : Bool := c == '-' || c == ':' || c == '_' || Text.isAlphanumeric c

/-- Read one directive.  White space around it is left out of account when its first character
    and its first equals sign are looked for; but the parts are then cut, at the byte found,
    from the text with its white space. -/
def parse (s : List Char) : Except DirectiveError Directive :=
  match Text.trim s with
  | [] => .error .malformed
  | c :: cs =>
    if !mayBegin c then .error .malformed
    else
      let name := c :: cs.takeWhile (· != '=')
      if name.length = cs.length + 1 then
        match level? s with
        | some l => .ok ⟨none, l⟩
        | none => .ok ⟨some (String.ofList s), some .trace⟩
      else
        let place := Text.byteLength name
        match Text.splitBytes? place s, Text.splitBytes? (place + 1) s with
        | some (target, _), some (_, []) => .ok ⟨some (String.ofList target), some .trace⟩
        | some (target, _), some (_, level) =>
          match level? level with
          | some l => .ok ⟨some (String.ofList target), l⟩
          | none => .error .unknownLevel
        | _, _ => .error .splitCharacter

def applies (d : Directive) (target : String) : Bool :=
  match d.target with
  | none => true
  | some t => t.toList.isPrefixOf target.toList

def specificity (d : Directive) : Nat :=
  match d.target with
  | none => 0
  | some t => t.utf8ByteSize + 1

end Directive

structure LogFilter where
  directives : List Directive
  deriving DecidableEq, Repr

namespace LogFilter

def parts (s : String) : List (List Char) :=
  (s.toList.splitOn ',').filter (!·.isEmpty)

/-- The filter of the given directives; without any it shows nothing. -/
def parse (s : String) : Except DirectiveError LogFilter := do
  return ⟨← (parts s).mapM Directive.parse⟩

/-- What is found in the parts of a text: directives, and parts that are none with what is wrong
    with them. -/
structure Sifted where
  directives : List Directive
  rejected : List (String × DirectiveError)
  /-- Whether a cut inside a character has put an end to the reading. -/
  broken : Bool

/-- Sift parts in their order.  All are read, except that a cut inside a character ends it. -/
def sift : List (List Char) → Sifted
  | [] => ⟨[], [], false⟩
  | p :: ps =>
    match Directive.parse p with
    | .ok d =>
      let rest := sift ps
      { rest with directives := d :: rest.directives }
    | .error .splitCharacter => ⟨[], [], true⟩
    | .error e =>
      let rest := sift ps
      { rest with rejected := (String.ofList p, e) :: rest.rejected }

/-- The filter of sifted directives, of `fallback` if there are none. -/
def Sifted.filter (fallback : Directive) (s : Sifted) : LogFilter :=
  ⟨if s.directives.isEmpty then [fallback] else s.directives⟩

/-- The most specific of two directives, the later one if they are equally specific. -/
def moreSpecific (d e : Directive) : Directive :=
  if d.specificity ≤ e.specificity then e else d

def deciding? (f : LogFilter) (target : String) : Option Directive :=
  match f.directives.filter (·.applies target) with
  | [] => none
  | d :: ds => some (ds.foldl moreSpecific d)

/-- Whether notices of a target and a level are shown. -/
def shows (f : LogFilter) (target : String) (level : Level) : Bool :=
  match (f.deciding? target).bind (·.level) with
  | some l => decide (level.rank ≤ l.rank)
  | none => false

end LogFilter

end LiveState
