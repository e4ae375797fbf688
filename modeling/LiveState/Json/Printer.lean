import LiveState.Decimal.Text
import LiveState.Json.Basic

/-!
# JSON texts

Two ways of writing a JSON value: compact, and indented by two spaces a level.  Only what has to
be escaped is escaped.
-/

namespace LiveState.Json

def hexDigit (n : Nat) : Char := Nat.digitChar n

def escape (c : Char) : List Char :=
  if c = '"' then ['\\', '"']
  else if c = '\\' then ['\\', '\\']
  else if c = '\x08' then ['\\', 'b']
  else if c = '\x0c' then ['\\', 'f']
  else if c = '\n' then ['\\', 'n']
  else if c = '\r' then ['\\', 'r']
  else if c = '\t' then ['\\', 't']
  else if c.toNat < 0x20 then
    ['\\', 'u', '0', '0', hexDigit (c.toNat / 16), hexDigit (c.toNat % 16)]
  else [c]

def literal (s : String) : List Char := '"' :: s.toList.flatMap escape ++ ['"']

def scalarText : Json → List Char
  | .null => ['n', 'u', 'l', 'l']
  | .bool true => ['t', 'r', 'u', 'e']
  | .bool false => ['f', 'a', 'l', 's', 'e']
  | .int n => (toString n).toList
  | .float x => (Decimal.Layout.json.render x).toList
  | .str s => literal s
  | .arr _ | .obj _ => []

mutual

def compactChars : Json → List Char
  | .arr items => '[' :: compactItems items ++ [']']
  | .obj fields => '\x7b' :: compactFields fields ++ ['\x7d']
  | v => v.scalarText

def compactItems : List Json → List Char
  | [] => []
  | [v] => v.compactChars
  | v :: w :: vs => v.compactChars ++ ',' :: compactItems (w :: vs)

def compactFields : List (String × Json) → List Char
  | [] => []
  | [(k, v)] => literal k ++ ':' :: v.compactChars
  | (k, v) :: f :: fs => literal k ++ ':' :: v.compactChars ++ ',' :: compactFields (f :: fs)

end

def compact (v : Json) : String := String.ofList v.compactChars

def newline (level : Nat) : List Char := '\n' :: List.replicate (2 * level) ' '

mutual

/-- The indented text of a value whose first line stands at the given level. -/
def prettyChars (level : Nat) : Json → List Char
  | .arr [] => ['[', ']']
  | .arr (v :: vs) => '[' :: prettyItems (level + 1) (v :: vs) ++ newline level ++ [']']
  | .obj [] => ['\x7b', '\x7d']
  | .obj (f :: fs) => '\x7b' :: prettyFields (level + 1) (f :: fs) ++ newline level ++ ['\x7d']
  | v => v.scalarText

def prettyItems (level : Nat) : List Json → List Char
  | [] => []
  | [v] => newline level ++ v.prettyChars level
  | v :: w :: vs => newline level ++ v.prettyChars level ++ ',' :: prettyItems level (w :: vs)

def prettyFields (level : Nat) : List (String × Json) → List Char
  | [] => []
  | [(k, v)] => newline level ++ literal k ++ ':' :: ' ' :: v.prettyChars level
  | (k, v) :: f :: fs =>
    newline level ++ literal k ++ ':' :: ' ' :: v.prettyChars level ++
      ',' :: prettyFields level (f :: fs)

end

def pretty (v : Json) : String := String.ofList (v.prettyChars 0)

end LiveState.Json
