import LiveState.Proofs.Observable.Callbacks
import LiveState.Proofs.Observable.Operations
import LiveState.Proofs.Yields

/-! # Observables that nobody but a keeper listens to

A change of such an observable is over as soon as the keeper has copied the new value.
-/

namespace LiveState

variable {W σ α κ : Type}

namespace Observable

variable {o : Observable α (Listener σ α)} {u : α}

/-- The value is `u`, nobody holds it, and only a keeper listens to it. -/
structure KeptAlone (o : Observable α (Listener σ α)) (u : α) : Prop where
  value : o.value = u
  free : o.isBorrowed = false
  keeper : o.callback? 0 = some (.keeper false)
  active : o.isActive 0 = true
  listed : o.listed = [0]

namespace KeptAlone

theorem store (h : o.KeptAlone u) (v : α) : (o.store v).KeptAlone v :=
  ⟨rfl, h.free, h.keeper, h.active, h.listed⟩

theorem register (v : α) : ((Observable.new v).register (.keeper (σ := σ) false)).KeptAlone v :=
  ⟨rfl, rfl, rfl, rfl, rfl⟩

theorem skipped (v : α) :
    (((Observable.new v).register (.keeper (σ := σ) true)).adjustCallback 0
      fun _ => .keeper false).KeptAlone v where
  value := rfl
  free := rfl
  keeper := by
    rw [callback?_adjustCallback_self]
    rfl
  active := by
    rw [isActive_adjustCallback]
    rfl
  listed := rfl

end KeptAlone

end Observable

namespace Place

variable {w : W} {v : α} {post : Unit → W → Prop}

section Calls

variable {p : Place W α κ} {call : Nat → κ → α → Act W Unit}

/-- A callback that comes to its end is a turn that comes to its end. -/
theorem deliver_yields {id : Nat} {callback : κ} {pass : Option Nat}
    (found : (p.cell w).callback? id = some callback)
    (h : (call id callback v).Yields (p.note (.called pass id v) w)
      fun _ w' => post () (p.note (.returned pass id) w')) :
    (p.deliver call pass id v).Yields w post := by
  obtain ⟨_, w', called, holds⟩ := h
  refine ⟨(), _, ?_, holds⟩
  rw [perform_deliver found, called]

theorem subscribe_yields {callback : κ} {post : Nat → W → Prop}
    (register : p.cell (p.adjust (·.register callback) w) = (p.cell w).register callback)
    (note : ∀ o u, p.cell (p.note o u) = p.cell u) (free : (p.cell w).isBorrowed = false)
    (h : (p.deliver call none (p.cell w).nextId (p.cell w).value).Yields (p.enlisted callback w)
      fun _ => post (p.cell w).nextId) :
    (p.subscribe call callback).Yields w post := by
  obtain ⟨id, w', ran, holds⟩ := Act.Yields.map h (f := fun _ => (p.cell w).nextId)
  exact ⟨id, w', (perform_subscribe_of_register register note free).trans ran, holds⟩

end Calls

/-- A new value is stored, and copied by the keeper. -/
theorem set_yields {p : Place W α (Listener σ α)} {call : Nat → Listener σ α → α → Act W Unit}
    {u : α} (alone : (p.cell w).KeptAlone u)
    (store : p.cell (p.adjust (·.store v) w) = (p.cell w).store v)
    (note : ∀ o u, p.cell (p.note o u) = p.cell u)
    (h : (p.deliver call (some ((p.cell w).version + 1)) 0 v).Yields (p.committed v w) post) :
    (p.set call v).Yields w post := by
  have after : (p.cell (p.committed v w)).KeptAlone v := by
    rw [committed, note, store]
    exact alone.store v
  -- The keeper is the only one on the list, and its turn is the whole pass.
  have pass : (do
      p.deliver call (some ((p.cell w).version + 1)) 0 v
      p.announce call ((p.cell w).version + 1) v []).Yields (p.committed v w) post :=
    .bind (h.mono fun _ _ => .pure)
  obtain ⟨_, w', ran, holds⟩ := pass
  refine ⟨_, w', ?_, holds⟩
  rw [perform_set_of_store store note alone.free, alone.listed,
    perform_announce_active after.active]
  exact ran

end Place

end LiveState
