/-!
# Revisions

Small descriptions of how a value is changed, for the plain types that a scenario's observables
may have.
-/

namespace LiveState.Observable

/-- A revision of a number: a new value, or else a summand.  Sums wrap around. -/
structure NumberRevision where
  replacement : Option Int64
  add : Option Int64

def NumberRevision.apply (r : NumberRevision) (n : Int64) : Int64 :=
  match r.replacement with
  | some m => m
  | none => n + r.add.getD 0

/-- A revision of a text: a new text, or else a text to append. -/
structure TextRevision where
  replacement : Option String
  append : Option String

def TextRevision.apply (r : TextRevision) (s : String) : String :=
  match r.replacement with
  | some t => t
  | none => s ++ r.append.getD ""

/-- A revision of a list: a new list, then an element to append, then an element to take out
    wherever it stands. -/
structure ListRevision where
  replacement : Option (List Int64)
  push : Option Int64
  without : Option Int64

def ListRevision.apply (r : ListRevision) (xs : List Int64) : List Int64 :=
  let xs := r.replacement.getD xs
  let xs := xs ++ r.push.toList
  match r.without with
  | some x => xs.filter (· != x)
  | none => xs

end LiveState.Observable
