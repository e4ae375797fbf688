import LiveState.Proofs.Observable.Accord
import LiveState.Proofs.Registry.Course

/-! # Registries in accord

Two worlds hold the same registry, and the same is done to it in both.
-/

namespace LiveState.Registry

open Act

variable {W σ η : Type} {R : W → W → Prop} {allowed : σ → Prop}

/-- Related worlds hold the same registry at a site, whose factories run allowed steps only, and
    remain related when the same is done to it. -/
structure Site.Common (R : W → W → Prop) (allowed : σ → Prop) (s : Site W σ η) : Prop where
  resolved : s.resolved.Common R allowed fun _ => False
  registry : ∀ w w', R w w' → s.registry w = s.registry w'
  catalog : ∀ w w', R w w' → (s.registry w).catalog.Within allowed
  count : ∀ w w', R w w' → R (s.adjust (fun r => { r with calls := r.calls + 1 }) w)
    (s.adjust (fun r => { r with calls := r.calls + 1 }) w')
  note : ∀ i w w', R w w' → R (s.note i w) (s.note i w')

variable {s : Site W σ η} {nested nested' : Nested W σ} {w w' : W}

theorem Factory.prepare_accord (hn : Nested.Accord R allowed nested nested')
    {factory : Factory σ η} (hf : ∀ t ∈ factory.steps, allowed t) (number : Nat) :
    Accord R (factory.prepare nested number) (factory.prepare nested' number) := by
  have steps : Accord R ((factory.stepsAt number).forM nested.inside)
      ((factory.stepsAt number).forM nested'.inside) :=
    .forM fun t ht => hn.inside t (hf t (mem_steps_of_mem_stepsAt ht))
  unfold prepare
  split
  · exact Accord.bind (fun w w' hw => .panic hw) fun _ => steps
  · exact steps

namespace Site.Common

variable (h : s.Common R allowed)

include h

theorem look {β γ : Type} (hw : R w w') {view : Registry σ η → β} {f f' : β → Act W γ}
    (k : AccordFrom R w w' (f (view (s.registry w))) (f' (view (s.registry w)))) :
    AccordFrom R w w' (s.look view >>= f) (s.look view >>= f') :=
  .look (congrArg view (h.registry w w' hw)) k

theorem view {β : Type} (hw : R w w') (view : Registry σ η → β) :
    AccordFrom R w w' (s.look view) (s.look view) :=
  .view hw (congrArg view (h.registry w w' hw))

theorem jot (i : Incident η) : Accord R (s.jot i) (s.jot i) :=
  fun w w' hw => .modify (h.note i w w' hw)

variable (hn : Nested.Accord R allowed nested nested')

include hn

theorem build (key : String) {factory : Factory σ η} (hf : ∀ t ∈ factory.steps, allowed t) :
    Accord R (s.build nested key factory) (s.build nested' key factory) := by
  refine fun w w' hw => (AccordFrom.modify (h.count w w' hw)).bind fun _ u u' _ _ hu => ?_
  refine h.look hu ((h.jot _ u u' hu).bind fun _ v v' _ _ hv => ?_)
  exact (factory.prepare_accord hn hf _ v v' hv).bind fun _ x x' _ _ hx => .pure hx _

variable (symm : ∀ w w', R w w' → R w' w)

include symm

/-- Subscribers of the mapping are called alike; nobody copies it. -/
theorem deliver (pass : Option Nat) (id : Nat) (v : Resolved η) :
    Accord R (s.resolved.deliver (s.call nested) pass id v)
      (s.resolved.deliver (s.call nested') pass id v) :=
  Listener.deliver_accord symm h.resolved hn (fun _ => aside_pure ()) (fun _ => aside_pure ())
    pass id v

theorem alter (n : Notice) (f : Resolved η → Resolved η) :
    Accord R (s.alter nested n f) (s.alter nested' n f) :=
  (h.jot _).bind fun _ => h.resolved.update (h.deliver hn symm) f false fun _ _ hw => .pure hw ()

theorem add (key : String) : Accord R (s.add nested key) (s.add nested' key) := by
  refine fun w w' hw => h.look hw ?_
  cases found : (s.registry w).catalog.get? key with
  | none => exact (h.jot _ w w' hw).bind fun _ u u' _ _ hu => .pure hu _
  | some factory =>
    refine (h.build hn key (h.catalog w w' hw key factory found) w w' hw).bind
      fun handle u u' _ _ hu => ?_
    exact (h.alter hn symm _ _ u u' hu).bind fun _ v v' _ _ hv => .pure hv _

theorem addKind (kind : PanelKind) : Accord R (s.addKind nested kind) (s.addKind nested' kind) := by
  refine (h.add hn symm kind.name).bind fun result => ?_
  cases result with
  | ok _ => exact fun w w' hw => .pure hw ()
  | error e => exact h.jot _

theorem perform [Text.Describe η] {enrol : String → Nat → W → W}
    (he : ∀ name id w w', R w w' → R (enrol name id w) (enrol name id w'))
    (action : Action σ η) (ha : action.Within allowed) :
    Accord R (action.perform s nested enrol) (action.perform s nested' enrol) := by
  cases action with
  | add key =>
    refine (h.add hn symm key).bind fun result => ?_
    cases result <;> exact fun w w' hw => .pure hw _
  | remove key => exact (h.alter hn symm _ _).bind fun _ w w' hw => .pure hw _
  | addKind kind => exact (h.addKind hn symm kind).bind fun _ w w' hw => .pure hw _
  | removeKind kind => exact (h.alter hn symm _ _).bind fun _ w w' hw => .pure hw _
  | list | get | contains | size | isEmpty | kinds | knows =>
    exact fun w w' hw => (h.view hw _).map _
  | describeCatalog pretty | describe pretty => exact fun w w' hw => h.look hw (.pure hw _)
  | resolved action =>
    exact fun w w' hw => (Observable.Action.perform_accord h.resolved hn (h.deliver hn symm) he
      action ha w w' hw).map _

end Site.Common

end LiveState.Registry
