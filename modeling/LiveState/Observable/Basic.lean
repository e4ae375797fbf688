import LiveState.Text.Description

/-!
# Observable values

A value with a version and a list of subscribers.  This module holds the data and its elementary
changes; how a change is announced to the subscribers is in `LiveState.Observable.Place`.

A subscriber is known by its number, the count of those registered before it, and the table
of subscribers never forgets one.  Two marks are kept apart: a subscriber is *active* until it is
unsubscribed, and it is *listed* as long as its entry stands in the list that a change walks
along.  The two can disagree for good: a subscriber that is unsubscribed while the value is
borrowed stays listed and is never called again.
-/

namespace LiveState

structure Subscriber (κ : Type) where
  callback : κ
  /-- Whether it has not been unsubscribed yet. -/
  active : Bool

/-- A value of type `α` whose changes are announced to callbacks of type `κ`. -/
structure Observable (α κ : Type) where
  value : α
  /-- How many changes there have been. -/
  version : Nat
  /-- All subscribers ever registered; a subscriber's number is its place here. -/
  subscribers : Array (Subscriber κ)
  /-- The numbers of the listed subscribers, in the order of their registration. -/
  listed : List Nat
  /-- How many readers hold the value borrowed. -/
  borrows : Nat

namespace Observable

variable {α κ : Type}

def new (value : α) : Observable α κ := ⟨value, 0, #[], [], 0⟩

def isBorrowed (o : Observable α κ) : Bool := o.borrows != 0

def borrow (o : Observable α κ) : Observable α κ := { o with borrows := o.borrows + 1 }

def release (o : Observable α κ) : Observable α κ := { o with borrows := o.borrows - 1 }

def store (o : Observable α κ) (v : α) : Observable α κ :=
  { o with value := v, version := o.version + 1 }

def nextId (o : Observable α κ) : Nat := o.subscribers.size

def register (o : Observable α κ) (callback : κ) : Observable α κ :=
  { o with
    subscribers := o.subscribers.push ⟨callback, true⟩
    listed := o.listed ++ [o.nextId] }

def callback? (o : Observable α κ) (id : Nat) : Option κ :=
  (o.subscribers[id]?).map (·.callback)

def adjustCallback (o : Observable α κ) (id : Nat) (f : κ → κ) : Observable α κ :=
  { o with subscribers := o.subscribers.modify id fun s => { s with callback := f s.callback } }

def isActive (o : Observable α κ) (id : Nat) : Bool :=
  (o.subscribers[id]?).any (·.active)

/-- Subscriber `id` is never to be called again. -/
def silence (o : Observable α κ) (id : Nat) : Observable α κ :=
  { o with subscribers := o.subscribers.modify id fun s => { s with active := false } }

/-- Take the entry of subscriber `id` off the list. -/
def delist (o : Observable α κ) (id : Nat) : Observable α κ :=
  { o with listed := o.listed.filter (· != id) }

/-! ## What the changes do to the marks -/

@[simp] theorem release_borrow (o : Observable α κ) : o.borrow.release = o := rfl

@[simp] theorem isBorrowed_borrow (o : Observable α κ) : o.borrow.isBorrowed = true := by
  simp [borrow, isBorrowed]

@[simp] theorem value_store (o : Observable α κ) (v : α) : (o.store v).value = v := rfl

@[simp] theorem version_store (o : Observable α κ) (v : α) :
    (o.store v).version = o.version + 1 := rfl

@[simp] theorem isActive_register_nextId (o : Observable α κ) (callback : κ) :
    (o.register callback).isActive o.nextId = true := by
  simp [isActive, register, nextId]

theorem isActive_register_of_ne {o : Observable α κ} {id : Nat} (h : id ≠ o.nextId)
    (callback : κ) : (o.register callback).isActive id = o.isActive id := by
  have h' : ¬ id = o.subscribers.size := h
  simp [isActive, register, Array.getElem?_push, h']

@[simp] theorem isActive_silence_self (o : Observable α κ) (id : Nat) :
    (o.silence id).isActive id = false := by
  cases h : o.subscribers[id]? <;> simp [isActive, silence, Array.getElem?_modify, h]

theorem isActive_silence_of_ne {id j : Nat} (h : j ≠ id) (o : Observable α κ) :
    (o.silence id).isActive j = o.isActive j := by
  simp [isActive, silence, Array.getElem?_modify, Ne.symm h]

/-! ## What the changes do to the callbacks -/

theorem callback?_store (o : Observable α κ) (v : α) (id : Nat) :
    (o.store v).callback? id = o.callback? id := rfl

theorem callback?_delist (o : Observable α κ) (id j : Nat) :
    (o.delist id).callback? j = o.callback? j := rfl

theorem callback?_silence (o : Observable α κ) (id j : Nat) :
    (o.silence id).callback? j = o.callback? j := by
  simp only [callback?, silence, Array.getElem?_modify]
  split <;> cases o.subscribers[j]? <;> simp

/-- Numbers are given in order, so that a new subscriber has a number of its own. -/
theorem lt_nextId_of_callback? {o : Observable α κ} {id : Nat} {l : κ}
    (found : o.callback? id = some l) : id < o.nextId := by
  refine Nat.lt_of_not_le fun large => ?_
  simp only [nextId] at large
  simp [callback?, Array.getElem?_eq_none large] at found

theorem callback?_register_self (o : Observable α κ) (l : κ) :
    (o.register l).callback? o.nextId = some l := by
  simp [callback?, register, nextId]

theorem callback?_register_of_ne {o : Observable α κ} {id : Nat} (h : id ≠ o.nextId) (l : κ) :
    (o.register l).callback? id = o.callback? id := by
  have h' : ¬ id = o.subscribers.size := h
  simp [callback?, register, Array.getElem?_push, h']

theorem callback?_adjustCallback_self (o : Observable α κ) (id : Nat) (f : κ → κ) :
    (o.adjustCallback id f).callback? id = (o.callback? id).map f := by
  simp only [callback?, adjustCallback, Array.getElem?_modify, if_true]
  cases o.subscribers[id]? <;> rfl

theorem callback?_adjustCallback_of_ne {id j : Nat} (h : j ≠ id) (o : Observable α κ)
    (f : κ → κ) : (o.adjustCallback id f).callback? j = o.callback? j := by
  simp [callback?, adjustCallback, Array.getElem?_modify, Ne.symm h]

theorem forall_callback_adjustCallback {P : κ → Prop} {o : Observable α κ} {id : Nat} {f : κ → κ}
    (h : ∀ j l, o.callback? j = some l → P l) (hf : ∀ l, P l → P (f l)) :
    ∀ j l, (o.adjustCallback id f).callback? j = some l → P l := by
  intro j l found
  by_cases here : j = id
  · subst here
    rw [callback?_adjustCallback_self] at found
    obtain ⟨l', was, rfl⟩ := Option.map_eq_some_iff.1 found
    exact hf l' (h j l' was)
  · rw [callback?_adjustCallback_of_ne here] at found
    exact h j l found

theorem isActive_adjustCallback (o : Observable α κ) (id j : Nat) (f : κ → κ) :
    (o.adjustCallback id f).isActive j = o.isActive j := by
  simp only [isActive, adjustCallback, Array.getElem?_modify]
  split <;> cases o.subscribers[j]? <;> simp

open Text in
instance [Describe α] : Describe (Observable α κ) where
  describe o := .record "Observable"
    [("value", describe o.value), ("version", .number o.version),
      ("subscribers", .number o.listed.length)]

end Observable

end LiveState
