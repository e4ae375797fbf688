import LiveState.Proofs.Observable.Course
import LiveState.Registry.Basic

/-! # Registries and courses

What the operations of a registry have to do with a course.
-/

namespace LiveState.Registry

open Course

variable {W σ η : Type} {c : Course W} {s : Site W σ η}

/-- What the operations of a registry do to it themselves stays on the course. -/
structure Site.Unwatched (c : Course W) (s : Site W σ η) : Prop where
  count : c.Admits (s.adjust fun r => { r with calls := r.calls + 1 })
  note : ∀ i, c.Admits (s.note i)

/-- Making handles stays on the course, whatever the factories of the registry set off. -/
def Site.Builds (c : Course W) (s : Site W σ η) (nested nested' : Nested W σ) : Prop :=
  ∀ w, c.sound w → ∀ key factory, (s.registry w).catalog.get? key = some factory →
    c.CarriesFrom w (s.build nested key factory) (s.build nested' key factory)

/-- The steps in the factories of a catalog are allowed. -/
def Catalog.Within (allowed : σ → Prop) (k : Catalog σ η) : Prop :=
  ∀ key factory, k.get? key = some factory → ∀ t ∈ factory.steps, allowed t

/-- The factories of panels set off no steps. -/
theorem Catalog.within_panels (allowed : σ → Prop) :
    (panels : Catalog σ Panel).Within allowed := by
  intro key factory found t ht
  obtain ⟨entry, there, rfl⟩ := Option.map_eq_some_iff.1 found
  have entries : (panels : Catalog σ Panel).entries =
      PanelKind.all.map fun k => (k.name, { make := k.build }) := rfl
  have listed := List.mem_of_find?_eq_some there
  rw [entries] at listed
  obtain ⟨kind, -, rfl⟩ := List.mem_map.1 listed
  cases ht

theorem Factory.prepare_carries {allowed : σ → Prop} {nested nested' : Nested W σ}
    (hn : Nested.Carried c allowed nested nested') {factory : Factory σ η}
    (hf : ∀ t ∈ factory.steps, allowed t) (number : Nat) :
    c.Carries (factory.prepare nested number) (factory.prepare nested' number) := by
  have steps : c.Carries ((factory.stepsAt number).forM nested.inside)
      ((factory.stepsAt number).forM nested'.inside) :=
    .forM fun t ht => hn.inside t (hf t (mem_steps_of_mem_stepsAt ht))
  unfold prepare
  split
  · exact carries_panic.bind fun _ => steps
  · exact steps

namespace Site

variable {allowed : σ → Prop} {nested nested' : Nested W σ}

theorem Unwatched.build (h : s.Unwatched c) (hn : Nested.Carried c allowed nested nested')
    (key : String) {factory : Factory σ η} (hf : ∀ t ∈ factory.steps, allowed t) :
    c.Carries (s.build nested key factory) (s.build nested' key factory) := by
  refine h.count.carries.bind fun _ => Carries.look fun w hw => ?_
  refine ((h.note _).carries w hw).bind fun _ u _ hu => ?_
  exact (factory.prepare_carries hn hf _ u hu).bind fun _ v _ hv => .pure hv _

theorem Unwatched.alter (h : s.Unwatched c)
    (set : ∀ v, c.Carries (s.resolved.set (s.call nested) v) (s.resolved.set (s.call nested') v))
    (n : Notice) (f : Resolved η → Resolved η) :
    c.Carries (s.alter nested n f) (s.alter nested' n f) := by
  refine (h.note _).carries.bind fun _ w hw => ?_
  exact Place.carriesFrom_look ((CarriesFrom.pure hw ()).bind fun _ v _ hv => set _ v hv)

theorem Unwatched.builds (h : s.Unwatched c) (hn : Nested.Carried c allowed nested nested')
    (catalog : ∀ w, c.sound w → (s.registry w).catalog.Within allowed) :
    s.Builds c nested nested' :=
  fun w hw key _ found => h.build hn key (catalog w hw key _ found) w hw

theorem Unwatched.add (h : s.Unwatched c) (builds : s.Builds c nested nested')
    (set : ∀ v, c.Carries (s.resolved.set (s.call nested) v) (s.resolved.set (s.call nested') v))
    (key : String) : c.Carries (s.add nested key) (s.add nested' key) := by
  refine fun w hw => CarriesFrom.look ?_
  dsimp only
  cases found : (s.registry w).catalog.get? key with
  | none => exact ((h.note _).carries w hw).bind fun _ u _ hu => .pure hu _
  | some factory =>
    refine (builds w hw key factory found).bind fun handle u _ hu => ?_
    exact (h.alter set _ _ u hu).bind fun _ v _ hv => .pure hv _

theorem Unwatched.remove (h : s.Unwatched c)
    (set : ∀ v, c.Carries (s.resolved.set (s.call nested) v) (s.resolved.set (s.call nested') v))
    (key : String) : c.Carries (s.remove nested key) (s.remove nested' key) :=
  h.alter set _ _

theorem Unwatched.addKind (h : s.Unwatched c) (builds : s.Builds c nested nested')
    (set : ∀ v, c.Carries (s.resolved.set (s.call nested) v) (s.resolved.set (s.call nested') v))
    (kind : PanelKind) : c.Carries (s.addKind nested kind) (s.addKind nested' kind) := by
  refine (h.add builds set kind.name).bind fun result => ?_
  cases result with
  | ok _ => exact carries_pure _
  | error e => exact (h.note _).carries

end Site

namespace Action

variable {allowed : σ → Prop} {nested nested' : Nested W σ}

/-- The steps in an action. -/
def steps : Action σ η → List σ
  | .resolved action => action.steps
  | _ => []

/-- All steps in an action are allowed. -/
def Within (allowed : σ → Prop) (action : Action σ η) : Prop := ∀ s ∈ action.steps, allowed s

/-- An action on a registry stays on a course, if setting the mapping does.  Actions on the mapping
    itself are left out. -/
theorem perform_carries_of_ne_resolved [Text.Describe η] {enrol : String → Nat → W → W}
    (h : s.Unwatched c) (builds : s.Builds c nested nested')
    (set : ∀ v, c.Carries (s.resolved.set (s.call nested) v) (s.resolved.set (s.call nested') v))
    {action : Action σ η} (other : ∀ inner, action ≠ .resolved inner) :
    c.Carries (action.perform s nested enrol) (action.perform s nested' enrol) := by
  cases action with
  | add key =>
    refine (h.add builds set key).bind fun result => ?_
    cases result <;> exact carries_pure _
  | remove key => exact (h.remove set key).bind fun _ => carries_pure _
  | addKind kind => exact (h.addKind builds set kind).bind fun _ => carries_pure _
  | removeKind kind => exact (h.remove set kind.name).bind fun _ => carries_pure _
  | list | get | contains | size | isEmpty | kinds | knows => exact (carries_view _).map _
  | describeCatalog pretty | describe pretty => exact Carries.look fun w hw => .pure hw _
  | resolved inner => exact absurd rfl (other inner)

theorem perform_carries [Text.Describe η] {enrol : String → Nat → W → W} (h : s.Unwatched c)
    (hn : Nested.Carried c allowed nested nested')
    (catalog : ∀ w, c.sound w → (s.registry w).catalog.Within allowed)
    (hp : s.resolved.Steady c (Listener.IsScript allowed) (s.call nested) (s.call nested'))
    (he : ∀ name w, c.sound w → ∀ rules id w',
      (s.resolved.subscribe (s.call nested) (.script name rules)).perform w = (.ok id, w') →
        c.sound w' → c.sound (enrol name id w') ∧ c.leads false w' (enrol name id w'))
    (action : Action σ η) (ha : action.Within allowed) :
    c.Carries (action.perform s nested enrol) (action.perform s nested' enrol) := by
  cases action with
  | resolved action => exact (Observable.Action.perform_carries hn hp he action ha).map _
  | _ => exact perform_carries_of_ne_resolved h (h.builds hn catalog) hp.set (by simp)

end Action

end LiveState.Registry
