import LiveState.Act
import LiveState.Observable.Basic

/-!
# Changing an observable and announcing the change

A *place* says how a world holds an observable.  The operations of this module work at a place,
so that a world may hold any number of observables of different types.

Every change is announced before the changing operation returns.  The pass that announces it
calls the subscribers that were listed when the new value was stored, in the order of their
registration, each with that very value; a subscriber that is no longer active when its turn
comes is passed over.  A callback may itself change the observable: then the pass of the inner
change runs to its end before the outer pass goes on.  A panic of a callback is noted and ends
that callback alone.
-/

namespace LiveState

inductive Occurrence (α : Type) where
  /-- The change with this number, counted from 1, stored this value. -/
  | committed (number : Nat) (value : α)
  | registered (id : Nat)
  /-- A subscriber is called, by the pass of the change with the given number or, without a
      number, because it has just been registered. -/
  | called (pass : Option Nat) (id : Nat) (value : α)
  | returned (pass : Option Nat) (id : Nat)
  /-- The callback panicked; whoever called it goes on. -/
  | faulted (pass : Option Nat) (id : Nat)
  /-- The turn of an unsubscribed subscriber. -/
  | passedOver (pass : Nat) (id : Nat)
  /-- A scripted callback of this name has received this value. -/
  | heard (name : String) (value : α)
  | silenced (id : Nat)
  | delisted (id : Nat)

/-- How a world of type `W` holds an observable, and where it notes what happens to it. -/
structure Place (W α κ : Type) where
  cell : W → Observable α κ
  adjust : (Observable α κ → Observable α κ) → W → W
  note : Occurrence α → W → W

namespace Place

variable {W α κ : Type} (p : Place W α κ)

def look {β : Type} (f : Observable α κ → β) : Act W β := Act.view fun w => f (p.cell w)

def change (f : Observable α κ → Observable α κ) : Act W Unit := modify (p.adjust f)

def jot (o : Occurrence α) : Act W Unit := modify (p.note o)

/-- Go on only if nobody holds the value borrowed. -/
def exclusive : Act W Unit := do
  if ← p.look (·.isBorrowed) then Act.panic else pure ()

/-- Store `v` and return the number of this change. -/
def commit (v : α) : Act W Nat := do
  p.exclusive
  p.change (·.store v)
  let number ← p.look (·.version)
  p.jot (.committed number v)
  return number

/-- Call subscriber `id` with `v`.  `call` runs a callback. -/
def deliver (call : Nat → κ → α → Act W Unit) (pass : Option Nat) (id : Nat) (v : α) :
    Act W Unit := do
  match ← p.look (·.callback? id) with
  | none => pure ()
  | some callback =>
    p.jot (.called pass id v)
    Act.rescuing
      (do call id callback v; p.jot (.returned pass id))
      (p.jot (.faulted pass id))

/-- The pass of the change `number`: the subscribers `ids` take their turns. -/
def announce (call : Nat → κ → α → Act W Unit) (number : Nat) (v : α) : List Nat → Act W Unit
  | [] => pure ()
  | id :: ids => do
    if ← p.look (·.isActive id) then
      p.deliver call (some number) id v
    else
      p.jot (.passedOver number id)
    announce call number v ids

def set (call : Nat → κ → α → Act W Unit) (v : α) : Act W Unit := do
  let number ← p.commit v
  let ids ← p.look (·.listed)
  p.announce call number v ids

/-- Set the value to `f` of the value current at the beginning.  `inside` runs in between; if
    `faulty`, the computation of the new value panics at its end. -/
def update (call : Nat → κ → α → Act W Unit) (f : α → α) (faulty : Bool)
    (inside : Act W Unit) : Act W Unit := do
  let v ← p.look (·.value)
  inside
  if faulty then Act.panic else p.set call (f v)

/-- Run `inside` while the value is borrowed, and return the value. -/
def borrowing (inside : Act W Unit) : Act W α := do
  let v ← p.look (·.value)
  Act.bracket (p.adjust (·.borrow)) (p.adjust (·.release)) inside
  return v

/-- Register a callback and call it at once with the current value.  The result is the
    subscriber's number. -/
def subscribe (call : Nat → κ → α → Act W Unit) (callback : κ) : Act W Nat := do
  p.exclusive
  let id ← p.look (·.nextId)
  p.change (·.register callback)
  p.jot (.registered id)
  let v ← p.look (·.value)
  p.deliver call none id v
  return id

/-- Silence subscriber `id` and take it off the list.  Only the first call does anything, and
    only the second half of it needs the value not to be borrowed. -/
def unsubscribe (id : Nat) : Act W Unit := do
  if ← p.look (·.isActive id) then
    p.change (·.silence id)
    p.jot (.silenced id)
    p.exclusive
    p.change (·.delist id)
    p.jot (.delisted id)
  else
    pure ()

end Place

end LiveState
