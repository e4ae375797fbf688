import LiveState.Json.Number

/-!
# Reading JSON texts

A text is read as one value with blanks around it.  Arrays and objects may be nested 127 deep.
Every reader takes the beginning of a text and returns what is left; there is one reason to
fail, that the text is not JSON.
-/

namespace LiveState.Json

def isBlank (c : Char) : Bool := c == ' ' || c == '\t' || c == '\r' || c == '\n'

def skipBlanks (s : List Char) : List Char := s.dropWhile isBlank

def hexValue? (c : Char) : Option Nat :=
  if isDigit c then some (digitValue c)
  else if 'a' ≤ c ∧ c ≤ 'f' then some (c.toNat - 'a'.toNat + 10)
  else if 'A' ≤ c ∧ c ≤ 'F' then some (c.toNat - 'A'.toNat + 10)
  else none

def hex4? (a b c d : Char) : Option Nat := do
  let a ← hexValue? a
  let b ← hexValue? b
  let c ← hexValue? c
  let d ← hexValue? d
  return ((a * 16 + b) * 16 + c) * 16 + d

def unescape? (c : Char) : Option Char :=
  if c = '"' then some '"'
  else if c = '\\' then some '\\'
  else if c = '/' then some '/'
  else if c = 'b' then some '\x08'
  else if c = 'f' then some '\x0c'
  else if c = 'n' then some '\n'
  else if c = 'r' then some '\r'
  else if c = 't' then some '\t'
  else none

def isHighSurrogate (n : Nat) : Bool := decide (0xd800 ≤ n) && decide (n < 0xdc00)

def isLowSurrogate (n : Nat) : Bool := decide (0xdc00 ≤ n) && decide (n < 0xe000)

def ofSurrogates (high low : Nat) : Char :=
  Char.ofNat (0x10000 + (high - 0xd800) * 0x400 + (low - 0xdc00))

/-- One character of a string literal at the beginning of a text, with the rest. -/
def stringChar : List Char → Option (Char × List Char)
  | '\\' :: 'u' :: a :: b :: c :: d :: s => do
    let n ← hex4? a b c d
    if isHighSurrogate n then
      match s with
      | '\\' :: 'u' :: a :: b :: c :: d :: s =>
        let m ← hex4? a b c d
        if isLowSurrogate m then some (ofSurrogates n m, s) else none
      | _ => none
    else if isLowSurrogate n then none
    else some (Char.ofNat n, s)
  | '\\' :: c :: s => (unescape? c).map fun c => (c, s)
  | '\\' :: [] => none
  | c :: s => if c.toNat < 0x20 then none else some (c, s)
  | [] => none

/-- The characters of a string literal after its opening quote, up to its closing quote.  Each
    character takes at least one from the text, so that the length of the text is fuel enough. -/
def stringChars : Nat → List Char → Option (List Char × List Char)
  | _, '"' :: s => some ([], s)
  | 0, _ => none
  | fuel + 1, s => do
    let (c, s) ← stringChar s
    let (cs, s) ← stringChars fuel s
    return (c :: cs, s)

def string (s : List Char) : Option (String × List Char) :=
  (stringChars s.length s).map fun (cs, s) => (String.ofList cs, s)

def scalar : List Char → Option (Json × List Char)
  | 'n' :: 'u' :: 'l' :: 'l' :: s => some (.null, s)
  | 't' :: 'r' :: 'u' :: 'e' :: s => some (.bool true, s)
  | 'f' :: 'a' :: 'l' :: 's' :: 'e' :: s => some (.bool false, s)
  | '"' :: s => (string s).map fun (t, s) => (.str t, s)
  | s => number s

/-- The elements of an array, the first of them at the beginning of the text, up to the closing
    bracket. -/
def elements (value : List Char → Option (Json × List Char)) :
    Nat → List Char → Option (List Json × List Char)
  | 0, _ => none
  | fuel + 1, s => do
    let (v, s) ← value (skipBlanks s)
    match skipBlanks s with
    | ',' :: s =>
      let (vs, s) ← elements value fuel s
      return (v :: vs, s)
    | ']' :: s => return ([v], s)
    | _ => none

def array (value : List Char → Option (Json × List Char)) (s : List Char) :
    Option (Json × List Char) :=
  match skipBlanks s with
  | ']' :: s => some (.arr [], s)
  | s => (elements value s.length s).map fun (vs, s) => (.arr vs, s)

def member (value : List Char → Option (Json × List Char)) :
    List Char → Option ((String × Json) × List Char)
  | '"' :: s => do
    let (k, s) ← string s
    match skipBlanks s with
    | ':' :: s =>
      let (v, s) ← value (skipBlanks s)
      return ((k, v), s)
    | _ => none
  | _ => none

/-- The members of an object, the first of them at the beginning of the text, up to the closing
    brace. -/
def members (value : List Char → Option (Json × List Char)) :
    Nat → List Char → Option (List (String × Json) × List Char)
  | 0, _ => none
  | fuel + 1, s => do
    let (f, s) ← member value (skipBlanks s)
    match skipBlanks s with
    | ',' :: s =>
      let (fs, s) ← members value fuel s
      return (f :: fs, s)
    | '\x7d' :: s => return ([f], s)
    | _ => none

def object (value : List Char → Option (Json × List Char)) (s : List Char) :
    Option (Json × List Char) :=
  match skipBlanks s with
  | '\x7d' :: s => some (.obj [], s)
  | s => (members value s.length s).map fun (fs, s) => (.obj (Fields.ofMembers fs), s)

/-- A value in which arrays and objects are nested at most `depth` deep. -/
def value : Nat → List Char → Option (Json × List Char)
  | 0, s => scalar s
  | depth + 1, s =>
    match s with
    | '[' :: s => array (value depth) s
    | '\x7b' :: s => object (value depth) s
    | s => scalar s

def maxDepth : Nat := 127

def parseChars? (s : List Char) : Option Json := do
  let (v, rest) ← value maxDepth (skipBlanks s)
  if (skipBlanks rest).isEmpty then some v else none

def parse? (s : String) : Option Json := parseChars? s.toList

end LiveState.Json
