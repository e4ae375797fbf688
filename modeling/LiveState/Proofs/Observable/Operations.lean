import LiveState.Proofs.Course
import LiveState.Observable.Place

/-! # Operations at a place, case by case

What each operation does from a given world, in the cases that it distinguishes.
-/

namespace LiveState.Place

variable {W α κ : Type} {p : Place W α κ}

/-- The observable at a place is what was last done to it. -/
structure Lawful (p : Place W α κ) : Prop where
  cell_adjust : ∀ f w, p.cell (p.adjust f w) = f (p.cell w)
  cell_note : ∀ o w, p.cell (p.note o w) = p.cell w

variable {call : Nat → κ → α → Act W Unit} {w : W}

theorem perform_look {β : Type} (f : Observable α κ → β) :
    (p.look f).perform w = (.ok (f (p.cell w)), w) := rfl

theorem perform_jot (o : Occurrence α) : (p.jot o).perform w = (.ok (), p.note o w) := rfl

theorem perform_change (f : Observable α κ → Observable α κ) :
    (p.change f).perform w = (.ok (), p.adjust f w) := rfl

theorem perform_exclusive_borrowed (h : (p.cell w).isBorrowed = true) :
    p.exclusive.perform w = (.error .panic, w) := by
  simp [exclusive, Act.perform_bind, perform_look, h]

theorem perform_exclusive_free (h : (p.cell w).isBorrowed = false) :
    p.exclusive.perform w = (.ok (), w) := by
  simp [exclusive, Act.perform_bind, perform_look, h]

/-- Whether the value is borrowed is only looked at. -/
theorem eq_of_exclusive_ok {u : W} (ran : p.exclusive.perform w = (.ok (), u)) : u = w := by
  cases free : (p.cell w).isBorrowed with
  | true =>
    rw [perform_exclusive_borrowed free] at ran
    cases ran
  | false =>
    rw [perform_exclusive_free free] at ran
    cases ran
    rfl

/-! ## Changes -/

theorem perform_set_borrowed (h : (p.cell w).isBorrowed = true) (v : α) :
    (p.set call v).perform w = (.error .panic, w) := by
  simp only [set, commit, Act.perform_bind, perform_exclusive_borrowed h]

/-- The world right after `v` has been stored. -/
def committed (p : Place W α κ) (v : α) (w : W) : W :=
  p.note (.committed ((p.cell w).version + 1) v) (p.adjust (·.store v) w)

/-- A value that nobody holds is stored, and the pass begins. -/
theorem perform_set_of_store {v : α}
    (store : p.cell (p.adjust (·.store v) w) = (p.cell w).store v)
    (note : ∀ o u, p.cell (p.note o u) = p.cell u) (h : (p.cell w).isBorrowed = false) :
    (p.set call v).perform w =
      (p.announce call ((p.cell w).version + 1) v (p.cell w).listed).perform
        (p.committed v w) := by
  have ids : (p.cell (p.committed v w)).listed = (p.cell w).listed := by
    rw [committed, note, store]
    rfl
  simp only [set, commit, Act.perform_bind, perform_exclusive_free h, perform_change,
    perform_look, perform_jot, store, Observable.version_store, Act.perform_pure]
  rw [← committed, ids]

namespace Lawful

theorem cell_committed (hp : p.Lawful) (v : α) (w : W) :
    p.cell (p.committed v w) = (p.cell w).store v := by
  rw [committed, hp.cell_note, hp.cell_adjust]

theorem perform_set_free (hp : p.Lawful) (h : (p.cell w).isBorrowed = false) (v : α) :
    (p.set call v).perform w =
      (p.announce call ((p.cell w).version + 1) v (p.cell w).listed).perform
        (p.committed v w) :=
  perform_set_of_store (hp.cell_adjust _ w) hp.cell_note h

end Lawful

/-- Unless the steps inside and the computation of the new value come to their ends, nothing else is
    done. -/
theorem perform_update (f : α → α) (faulty : Bool) (inside : Act W Unit) :
    (p.update call f faulty inside).perform w =
      match inside.perform w with
      | (.ok _, u) =>
        if faulty then (.error .panic, u) else (p.set call (f (p.cell w).value)).perform u
      | (.error i, u) => (.error i, u) := by
  simp only [update, Act.perform_bind, perform_look]
  rcases inside.perform w with ⟨_ | _, u⟩
  · rfl
  · cases faulty <;> rfl

/-- However the steps inside end, the value is given back. -/
theorem perform_borrowing (inside : Act W Unit) :
    (p.borrowing inside).perform w =
      ((inside.perform (p.adjust (·.borrow) w)).1.map fun _ => (p.cell w).value,
        p.adjust (·.release) (inside.perform (p.adjust (·.borrow) w)).2) := by
  simp only [borrowing, Act.perform_bind, perform_look, Act.perform_bracket, Act.perform_pure]
  rcases inside.perform (p.adjust (·.borrow) w) with ⟨_ | _, _⟩ <;> rfl

/-! ## Passes -/

theorem perform_deliver {id : Nat} {callback : κ}
    (found : (p.cell w).callback? id = some callback) (pass : Option Nat) (v : α) :
    (p.deliver call pass id v).perform w =
      match (call id callback v).perform (p.note (.called pass id v) w) with
      | (.ok _, u) => (.ok (), p.note (.returned pass id) u)
      | (.error .panic, u) => (.ok (), p.note (.faulted pass id) u)
      | (.error .exhausted, u) => (.error .exhausted, u) := by
  simp only [deliver, Act.perform_bind, perform_look, found, perform_jot, Act.perform_rescuing]
  rcases (call id callback v).perform (p.note (.called pass id v) w) with ⟨(_ | _) | _, _⟩ <;> rfl

/-- A call that came to its end: the callback returned or panicked. -/
theorem deliver_ok {id : Nat} {callback : κ} {pass : Option Nat} {v : α} {w' : W}
    (found : (p.cell w).callback? id = some callback)
    (ran : (p.deliver call pass id v).perform w = (.ok (), w')) :
    ∃ ending u, (call id callback v).perform (p.note (.called pass id v) w) = (ending, u) ∧
      (ending = .ok () ∧ w' = p.note (.returned pass id) u ∨
        ending = .error .panic ∧ w' = p.note (.faulted pass id) u) := by
  rw [perform_deliver found] at ran
  rcases called : (call id callback v).perform (p.note (.called pass id v) w) with
    ⟨(_ | _) | _, u⟩ <;> rw [called] at ran <;> cases ran
  · exact ⟨_, u, rfl, .inr ⟨rfl, rfl⟩⟩
  · exact ⟨_, u, rfl, .inl ⟨rfl, rfl⟩⟩

theorem perform_announce_active {id : Nat} (on : (p.cell w).isActive id = true) (number : Nat)
    (v : α) (ids : List Nat) :
    (p.announce call number v (id :: ids)).perform w =
      (do p.deliver call (some number) id v; p.announce call number v ids).perform w := by
  simp only [announce, Act.perform_bind, perform_look, on, if_true]

theorem perform_announce_silenced {id : Nat} (off : (p.cell w).isActive id = false)
    (number : Nat) (v : α) (ids : List Nat) :
    (p.announce call number v (id :: ids)).perform w =
      (p.announce call number v ids).perform (p.note (.passedOver number id) w) := by
  simp only [announce, Act.perform_bind, perform_look, off, perform_jot, Bool.false_eq_true,
    if_false]

/-- The first turn of a pass is that of the subscriber that is listed first. -/
theorem perform_set_listed {v : α} {id : Nat} {ids : List Nat}
    (store : p.cell (p.adjust (·.store v) w) = (p.cell w).store v)
    (note : ∀ o u, p.cell (p.note o u) = p.cell u) (free : (p.cell w).isBorrowed = false)
    (listed : (p.cell w).listed = id :: ids) (on : (p.cell w).isActive id = true) :
    (p.set call v).perform w =
      (do
        p.deliver call (some ((p.cell w).version + 1)) id v
        p.announce call ((p.cell w).version + 1) v ids).perform (p.committed v w) := by
  have still : (p.cell (p.committed v w)).isActive id = true := by
    rw [committed, note, store]
    exact on
  rw [perform_set_of_store store note free, listed, perform_announce_active still]

/-- A panic ends the callback that raised it, and nothing else. -/
theorem deliver_ne_panic (pass : Option Nat) (id : Nat) (v : α) (w : W) :
    ((p.deliver call pass id v).perform w).1 ≠ .error .panic := by
  cases found : (p.cell w).callback? id with
  | none =>
    simp [deliver, Act.perform_bind, perform_look, found]
  | some callback =>
    rw [perform_deliver found]
    rcases (call id callback v).perform (p.note (.called pass id v) w) with ⟨(_ | _) | _, _⟩ <;>
      simp

theorem announce_ne_panic (number : Nat) (v : α) (ids : List Nat) (w : W) :
    ((p.announce call number v ids).perform w).1 ≠ .error .panic := by
  -- Each turn begins in the world that the one before has left, whatever that is.
  induction ids generalizing w with
  | nil => simp [announce]
  | cons id ids ih =>
    cases on : (p.cell w).isActive id with
    | true =>
      rw [perform_announce_active on, Act.perform_bind]
      have delivered : ((p.deliver call (some number) id v).perform w).1 ≠ .error .panic :=
        deliver_ne_panic _ _ _ _
      rcases ran : (p.deliver call (some number) id v).perform w with ⟨i | _, u⟩
      · rw [ran] at delivered
        simpa using delivered
      · exact ih u
    | false =>
      rw [perform_announce_silenced on]
      exact ih _

/-- Whoever sets a value that nobody holds is not told of a panic. -/
theorem set_ne_panic {v : α} (store : p.cell (p.adjust (·.store v) w) = (p.cell w).store v)
    (note : ∀ o u, p.cell (p.note o u) = p.cell u) (free : (p.cell w).isBorrowed = false) :
    ((p.set call v).perform w).1 ≠ .error .panic := by
  rw [perform_set_of_store store note free]
  exact announce_ne_panic _ _ _ _

/-! ## Subscribers -/

theorem perform_subscribe_borrowed (h : (p.cell w).isBorrowed = true) (callback : κ) :
    (p.subscribe call callback).perform w = (.error .panic, w) := by
  simp only [subscribe, Act.perform_bind, perform_exclusive_borrowed h]

/-- The world right after a callback has been registered. -/
def enlisted (p : Place W α κ) (callback : κ) (w : W) : W :=
  p.note (.registered (p.cell w).nextId) (p.adjust (·.register callback) w)

theorem perform_subscribe_of_register {callback : κ}
    (register : p.cell (p.adjust (·.register callback) w) = (p.cell w).register callback)
    (note : ∀ o u, p.cell (p.note o u) = p.cell u) (h : (p.cell w).isBorrowed = false) :
    (p.subscribe call callback).perform w =
      ((fun _ => (p.cell w).nextId) <$>
        p.deliver call none (p.cell w).nextId (p.cell w).value).perform
          (p.enlisted callback w) := by
  have value : (p.cell (p.enlisted callback w)).value = (p.cell w).value := by
    rw [enlisted, note, register]
    rfl
  simp only [subscribe, Act.perform_bind, perform_exclusive_free h, perform_change,
    perform_look, perform_jot, Act.perform_pure, map_eq_pure_bind]
  rw [← enlisted, value]

theorem Lawful.cell_enlisted (hp : p.Lawful) (callback : κ) (w : W) :
    p.cell (p.enlisted callback w) = (p.cell w).register callback := by
  rw [enlisted, hp.cell_note, hp.cell_adjust]

theorem Lawful.perform_subscribe_free (hp : p.Lawful) (h : (p.cell w).isBorrowed = false)
    (callback : κ) :
    (p.subscribe call callback).perform w =
      ((fun _ => (p.cell w).nextId) <$>
        p.deliver call none (p.cell w).nextId (p.cell w).value).perform
          (p.enlisted callback w) :=
  perform_subscribe_of_register (hp.cell_adjust _ w) hp.cell_note h

theorem nextId_of_subscribe {callback : κ} {id : Nat} {w' : W}
    (ran : (p.subscribe call callback).perform w = (.ok id, w')) : id = (p.cell w).nextId := by
  obtain ⟨_, v, free, rest⟩ := Act.perform_bind_ok ran
  -- Making sure that nobody holds the value changes nothing, so that the number is that of `w`.
  have same : v = w := by
    cases borrowed : (p.cell w).isBorrowed with
    | true =>
      rw [perform_exclusive_borrowed borrowed] at free
      cases free
    | false =>
      rw [perform_exclusive_free borrowed] at free
      exact ((Prod.mk.inj free).2).symm
  obtain ⟨next, _, looked, rest⟩ := Act.perform_bind_ok rest
  obtain ⟨_, _, -, rest⟩ := Act.perform_bind_ok rest
  obtain ⟨_, _, -, rest⟩ := Act.perform_bind_ok rest
  obtain ⟨_, _, -, rest⟩ := Act.perform_bind_ok rest
  obtain ⟨_, _, -, ends⟩ := Act.perform_bind_ok rest
  cases ends
  cases looked
  rw [same]

theorem perform_unsubscribe_inactive {id : Nat} (off : (p.cell w).isActive id = false) :
    (p.unsubscribe id).perform w = (.ok (), w) := by
  simp [unsubscribe, Act.perform_bind, perform_look, off]

/-- The world right after subscriber `id` has been silenced. -/
def hushed (p : Place W α κ) (id : Nat) (w : W) : W :=
  p.note (.silenced id) (p.adjust (·.silence id) w)

theorem Lawful.cell_hushed (hp : p.Lawful) (id : Nat) (w : W) :
    p.cell (p.hushed id w) = (p.cell w).silence id := by
  rw [hushed, hp.cell_note, hp.cell_adjust]

/-- While the value is borrowed, only the first half of unsubscribing is done. -/
theorem Lawful.perform_unsubscribe_borrowed (hp : p.Lawful) {id : Nat}
    (on : (p.cell w).isActive id = true) (h : (p.cell w).isBorrowed = true) :
    (p.unsubscribe id).perform w = (.error .panic, p.hushed id w) := by
  have still : (p.cell (p.hushed id w)).isBorrowed = true := by
    rw [hp.cell_hushed]
    exact h
  simp only [unsubscribe, Act.perform_bind, perform_look, on, if_true, perform_change, perform_jot]
  rw [← hushed, perform_exclusive_borrowed still]

theorem Lawful.perform_unsubscribe_free (hp : p.Lawful) {id : Nat}
    (on : (p.cell w).isActive id = true) (h : (p.cell w).isBorrowed = false) :
    (p.unsubscribe id).perform w =
      (.ok (), p.note (.delisted id) (p.adjust (·.delist id) (p.hushed id w))) := by
  have still : (p.cell (p.hushed id w)).isBorrowed = false := by
    rw [hp.cell_hushed]
    exact h
  simp only [unsubscribe, Act.perform_bind, perform_look, on, if_true, perform_change, perform_jot]
  rw [← hushed, perform_exclusive_free still]

end LiveState.Place
