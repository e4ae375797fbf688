import LiveState.Proofs.Registry.Budget
import LiveState.Proofs.Session.Attended

/-! # What the operations of a session cost

Only the steps inside an action and the rules of the subscribers set off steps.  Writing settings
back sets off none.
-/

namespace LiveState

open Course

variable {W σ ρ : Type} {a : Account W} {weight : σ → Nat} {limit floor : Nat}
  {nested nested' : Nested W σ}

theorem Observable.Kept.of_new {α : Type} {v : α} {o : Observable α (Listener σ α)} :
    (Observable.new v).Kept o := by
  intro id l found
  simp [Observable.new, callback?] at found

namespace Settings

variable [Record ρ] {s : Site W σ ρ}

/-- How many steps an action on a record may set off. -/
def Action.cost (weight : σ → Nat) : Action σ ρ → Nat
  | .value action => action.cost weight
  | .reset | .key | .default | .describe _ => 0

variable (hp : s.value.Funded a weight)
  (acts : ∀ name t, a.Affords limit floor (weight t) (nested.act name t) (nested'.act name t))
  (copies : ∀ v, a.Affords limit floor 0 (s.writeBack v) (s.writeBack v))
include hp acts copies

theorem Site.served (reserve : Nat) :
    s.value.Served (a.course limit floor reserve) (s.call nested) (s.call nested') :=
  hp.served acts copies

/-- The subscriber that writes back has no rules. -/
theorem Site.keep_affords (skip : Bool) :
    a.Affords limit floor 0 (s.keep nested skip) (s.keep nested' skip) :=
  (hp.subscribe_affords (Site.served hp acts copies) (.keeper skip)).andThen fun _ =>
    .free fun _ => carries_pure _

theorem Action.perform_affords [Text.Describe ρ] {enrol : String → Nat → W → W}
    (insides : ∀ t, a.Affords limit floor (weight t) (nested.inside t) (nested'.inside t))
    (enrols : ∀ name id reserve, (a.course limit floor reserve).Admits (enrol name id))
    (action : Action σ ρ) :
    a.Affords limit floor (action.cost weight) (action.perform s nested enrol)
      (action.perform s nested' enrol) := by
  cases action with
  | value action =>
    exact (Observable.Action.perform_affords hp acts insides copies enrols action).map _
  | reset =>
    refine .free fun reserve => Carries.bind (Carries.look fun w hw => ?_) fun _ => carries_pure _
    exact hp.unwatched.set (Site.served hp acts copies reserve) _ w hw
  | key | default => exact .free fun _ => (carries_view _).map _
  | describe pretty => exact .free fun _ => Carries.look fun w hw => .pure hw _

end Settings

end LiveState
