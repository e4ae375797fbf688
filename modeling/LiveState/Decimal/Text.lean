import LiveState.Decimal.Shortest

/-!
# Floating-point numbers as text

The shortest digits, written with a decimal point where the number is neither very large nor
very small, else with one digit before the point and an exponent.
-/

namespace LiveState.Decimal

/-- How the digits of a number are laid out. -/
structure Layout where
  plainFrom : Int
  plainTo : Int
  /-- What follows the digits of a whole number without an exponent. -/
  wholeSuffix : String
  /-- What stands between the digits and an exponent that is not negative, and before one that
      is. -/
  positiveMark : String
  negativeMark : String

/-- The layout of numbers in JSON texts: plain from 0.00001 to below 10 ^ 16, always with a digit
    after the point; an exponent always has its sign. -/
def Layout.json : Layout := ⟨-5, 15, ".0", "e+", "e-"⟩

def stripZeros (ds : List Char) : List Char := (ds.reverse.dropWhile (· == '0')).reverse

/-- Write the digits `ds`, the first of which stands for a multiple of `10 ^ x`. -/
def Layout.write (l : Layout) (ds : List Char) (x : Int) : String :=
  if l.plainFrom ≤ x ∧ x ≤ l.plainTo then
    if x < 0 then
      String.ofList ('0' :: '.' :: List.replicate ((-x).toNat - 1) '0' ++ ds)
    else
      let whole := x.toNat + 1
      let front := ds.take whole ++ List.replicate (whole - ds.length) '0'
      let back := ds.drop whole
      if back.isEmpty then String.ofList front ++ l.wholeSuffix
      else String.ofList (front ++ '.' :: back)
  else
    let front := ds.take 1
    let back := ds.drop 1
    let digits := if back.isEmpty then front else front ++ '.' :: back
    String.ofList digits ++ (if x < 0 then l.negativeMark else l.positiveMark) ++ toString x.natAbs

/-- Whether the sign bit of a number is set; minus zero has one, too. -/
def hasSign (x : Float) : Bool := decide (0x8000000000000000 ≤ x.toBits.toNat)

def Layout.render (l : Layout) (x : Float) : String :=
  let sign := if hasSign x then "-" else ""
  if x == 0 then sign ++ "0" ++ l.wholeSuffix
  else
    let d := shortest x.abs
    let ds := Nat.toDigits 10 d.digits
    sign ++ l.write (stripZeros ds) (d.exponent + ds.length - 1)

end LiveState.Decimal
