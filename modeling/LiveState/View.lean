/-!
# Views

What a scenario sees of a value: a number, a text, or a list of views.  Conditions of rules are
about views, and answers show them.
-/

namespace LiveState

inductive View where
  | number (n : Int)
  | text (s : String)
  | list (items : List View)

namespace View

mutual

def same : View → View → Bool
  | .number m, .number n => m == n
  | .text s, .text t => s == t
  | .list xs, .list ys => sameAll xs ys
  | _, _ => false

def sameAll : List View → List View → Bool
  | [], [] => true
  | x :: xs, y :: ys => x.same y && sameAll xs ys
  | _, _ => false

end

instance : BEq View := ⟨same⟩

def items : View → Option (List View)
  | .list items => some items
  | _ => none

/-- The first element of a list: its key, if the list is an entry. -/
def key? (v : View) : Option View := v.items.bind List.head?

end View

inductive Condition where
  | always
  | never
  | equals (v : View)
  | hasLength (n : Nat)
  | hasKey (key : View)

def Condition.holds : Condition → View → Bool
  | .always, _ => true
  | .never, _ => false
  | .equals v, w => w == v
  | .hasLength n, w => w.items.any (·.length == n)
  | .hasKey k, w => w.items.any (·.any fun entry => entry.key?.any (· == k))

/-- Types whose values can be seen. -/
class Viewed (α : Type) where
  view : α → View

export Viewed (view)

instance : Viewed Int64 := ⟨fun n => .number n.toInt⟩

instance : Viewed String := ⟨.text⟩

instance {α : Type} [Viewed α] : Viewed (List α) := ⟨fun xs => .list (xs.map view)⟩

end LiveState
