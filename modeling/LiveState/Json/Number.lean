import LiveState.Json.Basic

/-!
# Numbers in JSON texts

A number without fraction and exponent that fits 64 bits is kept exactly, unless it is minus
zero.  Every other number becomes a floating-point number: its leading digits, as many as fit
64 bits, are scaled by a power of ten.  The scaling works in floating-point arithmetic, so that
the result may differ from the nearest number in its last bits.
-/

namespace LiveState.Json

def isDigit (c : Char) : Bool := decide ('0' ≤ c) && decide (c ≤ '9')

def digitValue (c : Char) : Nat := c.toNat - '0'.toNat

/-- Append digits to a number as long as it stays below `2 ^ 64`.  The result is the number and
    the digits left over. -/
def gather (n : Nat) : List Char → Nat × List Char
  | [] => (n, [])
  | c :: cs =>
    let n' := n * 10 + digitValue c
    if n' < UInt64.size then gather n' cs else (n, c :: cs)

/-- The power `10 ^ k`, rounded to the nearest floating-point number. -/
def powerOfTen (k : Nat) : Float := Float.ofScientific 1 false k

/-- `f / 10 ^ k`, in steps of at most 308 digits. -/
def scaleDown (f : Float) (k : Nat) : Float :=
  if k ≤ 308 then f / powerOfTen k
  else if f == 0 then f
  else scaleDown (f / powerOfTen 308) (k - 308)
termination_by k

/-- `f · 10 ^ k`, if it is not too large. -/
def scaleUp? (f : Float) (k : Nat) : Option Float :=
  if k ≤ 308 then
    let g := f * powerOfTen k
    if g.isInf then none else some g
  else if f == 0 then some f
  else none

def scaled? (negative : Bool) (n : Nat) (e : Int) : Option Json :=
  let f := n.toUInt64.toFloat
  let g := if 0 ≤ e then scaleUp? f e.toNat else some (scaleDown f (-e).toNat)
  g.map fun g => .float (if negative then -g else g)

/-- The parts of a number in a text: the digits before the point, those after it, and the
    exponent.  A part that is not there is `none`. -/
structure NumberParts where
  negative : Bool
  whole : List Char
  fraction : Option (List Char)
  exponent : Option Int

def NumberParts.value? (p : NumberParts) : Option Json :=
  let (n, left) := gather 0 p.whole
  match p.fraction, p.exponent, left with
  | none, none, [] =>
    if !p.negative then some (.int n)
    else if n = 0 ∨ 0x8000000000000000 < n then some (.float (-n.toUInt64.toFloat))
    else some (.int (-n))
  | fraction, exponent, left =>
    let digits := fraction.getD []
    let (n, left') := gather n digits
    scaled? p.negative n (left.length - (digits.length - left'.length : Nat) + exponent.getD 0)

def takeDigits (s : List Char) : List Char × List Char := (s.takeWhile isDigit, s.dropWhile isDigit)

/-- The whole part: digits without a leading zero, or a zero alone. -/
def wholePart (s : List Char) : Option (List Char × List Char) :=
  match takeDigits s with
  | ([], _) => none
  | ('0' :: _ :: _, _) => none
  | (ds, rest) => some (ds, rest)

/-- The fraction, if there is a point: at least one digit. -/
def fractionPart : List Char → Option (Option (List Char) × List Char)
  | '.' :: s =>
    match takeDigits s with
    | ([], _) => none
    | (ds, rest) => some (some ds, rest)
  | s => some (none, s)

def ofDigits (ds : List Char) : Nat := ds.foldl (fun n c => n * 10 + digitValue c) 0

/-- The digits of an exponent: at least one. -/
def exponentDigits (negative : Bool) (s : List Char) : Option (Option Int × List Char) :=
  match takeDigits s with
  | ([], _) => none
  | (ds, rest) => some (some (if negative then -(ofDigits ds : Int) else ofDigits ds), rest)

/-- The exponent, if there is one: a letter, a sign or none, digits. -/
def exponentPart : List Char → Option (Option Int × List Char)
  | 'e' :: s | 'E' :: s =>
    match s with
    | '+' :: s => exponentDigits false s
    | '-' :: s => exponentDigits true s
    | s => exponentDigits false s
  | s => some (none, s)

def unsigned (negative : Bool) (s : List Char) : Option (Json × List Char) := do
  let (whole, s) ← wholePart s
  let (fraction, s) ← fractionPart s
  let (exponent, s) ← exponentPart s
  let v ← NumberParts.value? ⟨negative, whole, fraction, exponent⟩
  return (v, s)

def number : List Char → Option (Json × List Char)
  | '-' :: s => unsigned true s
  | s => unsigned false s

end LiveState.Json
