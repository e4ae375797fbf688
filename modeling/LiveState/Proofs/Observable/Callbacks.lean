import LiveState.Proofs.Observable.Course

/-! # The callbacks of an observable

What becomes of the callbacks when the observable changes, and observables whose first subscriber
is a keeper: it is never unsubscribed, and it has the first turn of every pass.
-/

namespace LiveState

theorem Listener.within_spend {σ α : Type} {allowed : σ → Prop} {l : Listener σ α} {i : Nat}
    (h : l.Within allowed) : (l.spend i).Within allowed := by
  intro r hr s hs
  cases l with
  | keeper skip => exact h r hr s hs
  | script name rules =>
    -- A rule that has fired has another count, but stands in the same place.
    obtain ⟨j, small, rfl⟩ := List.mem_iff_getElem.1 hr
    have small' : j < rules.length := by simpa [Listener.spend, Listener.rules] using small
    refine h rules[j] (List.getElem_mem small') s ?_
    simp only [Listener.spend, Listener.rules, List.getElem_modify] at hs
    split at hs <;> exact hs

/-- Only a script has rules, and spending makes no keeper of it. -/
theorem Listener.IsScript.spend {σ α : Type} {allowed : σ → Prop} {l : Listener σ α} {i : Nat}
    (h : l.IsScript allowed) : (l.spend i).IsScript allowed := by
  refine ⟨Listener.within_spend h.1, fun skip => ?_⟩
  cases l with
  | keeper skip' => exact absurd rfl (h.2 skip')
  | script name rules => simp [Listener.spend]

namespace Observable

variable {α κ : Type}

/-! ## Values -/

/-- What an observable is later on: its value changes only by being set, which is counted. -/
structure Later (o o' : Observable α κ) : Prop where
  version : o.version ≤ o'.version
  value : o'.version = o.version → o'.value = o.value

namespace Later

variable {o o' o'' : Observable α κ}

theorem refl (o : Observable α κ) : Later o o := ⟨Nat.le_refl _, fun _ => rfl⟩

theorem trans (h : Later o o') (k : Later o' o'') : Later o o'' where
  version := Nat.le_trans h.version k.version
  value same := by
    have still : o'.version = o.version := Nat.le_antisymm (same ▸ k.version) h.version
    rw [k.value (same.trans still.symm), h.value still]

theorem store (o : Observable α κ) (v : α) : Later o (o.store v) :=
  ⟨Nat.le_succ _, fun same => absurd same (Nat.succ_ne_self _)⟩

theorem of_eq (same : o' = o) : Later o o' := same ▸ refl o

theorem unset (value : o'.value = o.value) (version : o'.version = o.version) : Later o o' :=
  ⟨Nat.le_of_eq version.symm, fun _ => value⟩

end Later

/-! ## Keepers -/

variable {σ : Type} {allowed : σ → Prop} {o : Observable α (Listener σ α)}

/-- The first subscriber copies every value, and all others are scripts of allowed steps. -/
structure KeeperFirst (allowed : σ → Prop) (o : Observable α (Listener σ α)) : Prop where
  keeper : o.callback? 0 = some (.keeper false)
  active : o.isActive 0 = true
  listed : ∃ rest, o.listed = 0 :: rest ∧ 0 ∉ rest
  script : ∀ id l, id ≠ 0 → o.callback? id = some l → l.IsScript allowed

namespace KeeperFirst

theorem nextId_ne_zero (h : o.KeeperFirst allowed) : o.nextId ≠ 0 :=
  Nat.ne_of_gt (lt_nextId_of_callback? h.keeper)

theorem store (h : o.KeeperFirst allowed) (v : α) : (o.store v).KeeperFirst allowed :=
  ⟨h.keeper, h.active, h.listed, h.script⟩

theorem borrow (h : o.KeeperFirst allowed) : o.borrow.KeeperFirst allowed :=
  ⟨h.keeper, h.active, h.listed, h.script⟩

theorem release (h : o.KeeperFirst allowed) : o.release.KeeperFirst allowed :=
  ⟨h.keeper, h.active, h.listed, h.script⟩

theorem register (h : o.KeeperFirst allowed) {l : Listener σ α} (isScript : l.IsScript allowed) :
    (o.register l).KeeperFirst allowed where
  keeper := by
    rw [callback?_register_of_ne h.nextId_ne_zero.symm, h.keeper]
  active := by
    rw [isActive_register_of_ne h.nextId_ne_zero.symm, h.active]
  listed := by
    obtain ⟨rest, listed, once⟩ := h.listed
    refine ⟨rest ++ [o.nextId], by simp [Observable.register, listed], ?_⟩
    simpa [once] using h.nextId_ne_zero.symm
  script id l' other found := by
    by_cases fresh : id = o.nextId
    · subst fresh
      rw [callback?_register_self, Option.some.injEq] at found
      subst found
      exact isScript
    · rw [callback?_register_of_ne fresh] at found
      exact h.script id l' other found

theorem spend (h : o.KeeperFirst allowed) (id i : Nat) :
    (o.adjustCallback id (·.spend i)).KeeperFirst allowed where
  keeper := by
    by_cases first : id = 0
    · subst first
      rw [callback?_adjustCallback_self, h.keeper]
      rfl
    · rw [callback?_adjustCallback_of_ne (Ne.symm first), h.keeper]
  active := by rw [isActive_adjustCallback, h.active]
  listed := h.listed
  script j l other found := by
    by_cases here : j = id
    · subst here
      rw [callback?_adjustCallback_self] at found
      cases was : o.callback? j with
      | none =>
        rw [was] at found
        cases found
      | some l' =>
        rw [was] at found
        cases found
        exact (h.script j l' other was).spend
    · rw [callback?_adjustCallback_of_ne here] at found
      exact h.script j l other found

theorem silence (h : o.KeeperFirst allowed) {id : Nat} (other : id ≠ 0) :
    (o.silence id).KeeperFirst allowed where
  keeper := by rw [callback?_silence, h.keeper]
  active := by rw [isActive_silence_of_ne other.symm, h.active]
  listed := h.listed
  script j l ne found := h.script j l ne (by rwa [callback?_silence] at found)

theorem delist (h : o.KeeperFirst allowed) {id : Nat} (other : id ≠ 0) :
    (o.delist id).KeeperFirst allowed where
  keeper := h.keeper
  active := h.active
  listed := by
    obtain ⟨rest, listed, once⟩ := h.listed
    refine ⟨rest.filter (· != id), ?_, fun again => once (List.mem_filter.1 again).1⟩
    simp [Observable.delist, listed, other.symm]
  script := h.script

theorem new (v : α) (skip : Bool) :
    (((Observable.new v).register (.keeper skip)).adjustCallback 0
      fun _ => .keeper false).KeeperFirst allowed where
  keeper := by
    rw [callback?_adjustCallback_self]
    rfl
  active := by
    rw [isActive_adjustCallback]
    rfl
  listed := ⟨[], rfl, by simp⟩
  script id l other found := by
    rw [callback?_adjustCallback_of_ne other, callback?_register_of_ne other] at found
    simp [Observable.new, callback?] at found

end KeeperFirst

end Observable

end LiveState
