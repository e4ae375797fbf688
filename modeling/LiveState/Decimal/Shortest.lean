/-!
# Shortest decimals

The decimal with the fewest digits among those that round to a given binary floating-point
number, and among these the nearest; of two equally near ones the one with an even last digit.

A positive number is taken apart into `m · 2 ^ e`.  The decimals that round to it form an
interval around it, which is compared with decimal grids in exact arithmetic on natural numbers.
-/

namespace LiveState.Decimal

/-- A positive number `m · 2 ^ e`, and whether its lower neighbour is only half as far away as
    its upper one. -/
structure Binary where
  m : Nat
  e : Int
  narrowBelow : Bool

/-- The least `m` of a number that is not among the smallest ones, `2 ^ 52`. -/
def leastFull : Nat := 0x10000000000000

/-- Take a positive finite floating-point number apart: 52 bits of `m`, below 11 bits of the
    exponent. -/
def Binary.ofFloat (x : Float) : Binary :=
  let bits := x.toBits.toNat
  let fraction := bits % leastFull
  let exponent := bits / leastFull % 0x800
  if exponent = 0 then ⟨fraction, -1074, false⟩
  else ⟨leastFull + fraction, (exponent : Int) - 1075, fraction = 0 ∧ exponent ≠ 1⟩

/-- A number with the ends of the interval of those that round to it, as fractions over one
    denominator. -/
structure Interval where
  low : Nat
  mid : Nat
  high : Nat
  denominator : Nat
  /-- Whether the ends belong to the interval. -/
  closed : Bool

def Interval.around (b : Binary) : Interval :=
  -- In quarters of `2 ^ e` all three points are whole.
  let scale := Nat.pow 2 (b.e - 2).toNat
  { low := (4 * b.m - (if b.narrowBelow then 1 else 2)) * scale
    mid := 4 * b.m * scale
    high := (4 * b.m + 2) * scale
    denominator := Nat.pow 2 (2 - b.e).toNat
    closed := b.m % 2 = 0 }

/-- A decimal `digits · 10 ^ exponent`. -/
structure Numeral where
  digits : Nat
  exponent : Int
  deriving DecidableEq, Repr

namespace Interval

def scaled (i : Interval) (k : Int) : Interval :=
  { i with
    low := i.low * Nat.pow 10 (-k).toNat
    mid := i.mid * Nat.pow 10 (-k).toNat
    high := i.high * Nat.pow 10 (-k).toNat
    denominator := i.denominator * Nat.pow 10 k.toNat }

def contains (i : Interval) (n : Nat) : Bool :=
  let v := n * i.denominator
  if i.closed then decide (i.low ≤ v) && decide (v ≤ i.high)
  else decide (i.low < v) && decide (v < i.high)

/-- The whole number in the interval that is nearest to its middle point. -/
def nearest? (i : Interval) : Option Nat :=
  let below := i.mid / i.denominator
  let above := below + 1
  match i.contains below, i.contains above with
  | true, true =>
    let toBelow := i.mid - below * i.denominator
    let toAbove := above * i.denominator - i.mid
    if toBelow < toAbove then some below
    else if toAbove < toBelow then some above
    else if below % 2 = 0 then some below
    else some above
  | true, false => some below
  | false, true => some above
  | false, false => none

/-- The power of ten of the leading digit of the middle point, looked for downwards from `k`. -/
def leadingExponent (i : Interval) : Nat → Int → Int
  | 0, k => k
  | fuel + 1, k =>
    let s := i.scaled k
    if s.denominator ≤ s.mid then k else leadingExponent i fuel (k - 1)

/-- Try the grids with `n`, `n + 1`, … digits. -/
def shortestFrom (i : Interval) (leading : Int) : Nat → Nat → Numeral
  | 0, n => ⟨0, leading - n + 1⟩
  | fuel + 1, n =>
    let k := leading - (n : Int) + 1
    match (i.scaled k).nearest? with
    | some d => ⟨d, k⟩
    | none => shortestFrom i leading fuel (n + 1)

end Interval

/-- Seventeen digits suffice for every number, and no number reaches `10 ^ 309`. -/
def shortest (x : Float) : Numeral :=
  let i := Interval.around (Binary.ofFloat x)
  i.shortestFrom (i.leadingExponent 700 309) 17 1

end LiveState.Decimal
