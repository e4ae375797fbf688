import LiveState.Proofs.Observable.Accord
import LiveState.Proofs.Settings.Course

/-! # Settings records in accord

Two worlds hold the same settings record, each on a medium of its own.  Whatever the media do with
what is written to them, the same is done to the record in both worlds, as long as nobody sees the
media and the notices about them.
-/

namespace LiveState.Settings

open Act

variable {W σ ρ ι : Type} {R : W → W → Prop} {allowed : σ → Prop}

/-- Related worlds hold the same record at a site, and notices about it are not seen. -/
structure Site.Common (R : W → W → Prop) (allowed : σ → Prop) (s : Site W σ ρ) : Prop where
  value : s.value.Common R allowed (· = 0)
  settings : ∀ w w', R w w' → s.settings w = s.settings w'
  notice : ∀ n, Unseen R (s.note (.notice n))

theorem Site.Common.view {s : Site W σ ρ} (h : s.Common R allowed) {w w' : W} (hw : R w w')
    {β : Type} (view : Settings σ ρ → β) : AccordFrom R w w' (s.look view) (s.look view) :=
  .view hw (congrArg view (h.settings w w' hw))

/-- What a medium does with what is written to it is not seen. -/
def Store.Hidden (R : W → W → Prop) (store : Store W) : Prop :=
  ∀ key bytes, Aside R (store.write key bytes)

namespace Site

variable [Record ρ] {s : Site W σ ρ} {store : Store W} {nested nested' : Nested W σ}

theorem writeBack_aside (notice : ∀ n, Unseen R (s.note (.notice n)))
    (hidden : s.store.Hidden R) (v : ρ) : Aside R (s.writeBack v) := by
  refine Aside.look fun key => ?_
  cases encode v with
  | error e => exact (notice _).aside
  | ok bytes =>
    refine (hidden key bytes).bind fun result => ?_
    rcases result with (_ | _ | _) | _
    · exact (notice _).aside
    · exact (notice _).aside
    · exact (notice _).aside
    · exact aside_pure ()

variable (symm : ∀ w w', R w w' → R w' w) (h : s.Common R allowed)
  (hn : Nested.Accord R allowed nested nested') (hidden : s.store.Hidden R)
  (hidden' : store.Hidden R)

include symm h hn hidden hidden'

/-- Subscribers are called alike, whatever the medium of the record is. -/
theorem Common.deliver (pass : Option Nat) (id : Nat) (v : ρ) :
    Accord R (s.value.deliver (s.call nested) pass id v)
      (s.value.deliver (Site.call { s with store := store } nested') pass id v) :=
  Listener.deliver_accord symm h.value hn (writeBack_aside h.notice hidden)
    (writeBack_aside (s := { s with store := store }) h.notice hidden') pass id v

theorem Common.reset :
    Accord R (s.reset nested) (Site.reset { s with store := store } nested') := by
  intro w w' hw
  refine (h.view hw _).bind fun d u u' _ _ hu => ?_
  exact h.value.set (h.deliver symm hn hidden hidden') d u u' hu

theorem Common.keep {w w' : W} (hw : R w w') (fresh : (s.value.cell w).nextId = 0) (skip : Bool) :
    AccordFrom R w w' (s.keep nested skip) (Site.keep { s with store := store } nested' skip) := by
  have within : (Listener.keeper skip : Listener σ ρ).Within allowed := by
    simp [Listener.Within, Listener.rules]
  have calls := h.deliver symm hn hidden hidden'
  exact (h.value.subscribe calls hw within fun _ _ => fresh).bind fun _ u u' _ _ hu => .pure hu ()

theorem Common.perform [Text.Describe ρ] {enrol : String → Nat → W → W}
    (he : ∀ name id w w', R w w' → R (enrol name id w) (enrol name id w'))
    (action : Action σ ρ) (ha : action.Within allowed) :
    Accord R (action.perform s nested enrol)
      (action.perform { s with store := store } nested' enrol) := by
  have calls := h.deliver symm hn hidden hidden'
  cases action with
  | value action =>
    exact fun w w' hw =>
      (Observable.Action.perform_accord h.value hn calls he action ha w w' hw).map _
  | reset =>
    exact (h.reset symm hn hidden hidden').bind fun _ w w' hw => .pure hw _
  | key | default =>
    exact fun w w' hw => (h.view hw _).map _
  | describe pretty => exact fun w w' hw => (h.view hw _).bind fun _ u u' _ _ hu => .pure hu _

end Site

/-- Two loads that read the same are in accord, if putting in a record and keeping it are. -/
theorem load_accord [Record ρ] {w w' : W} {nested nested' : Nested W σ} {store store' : Store W}
    {tell : Notice → W → W} {install install' : Settings σ ρ → Act W ι}
    {site site' : ι → Site W σ ρ} {key : String} {default : ρ}
    (read : AccordFrom R w w' (store.read key) (store'.read key))
    (tells : ∀ n u u', R u u' → R (tell n u) (tell n u'))
    (puts : ∀ v skip, Accord R
      (do let i ← install (.new key default v); (site i).keep nested skip; return i)
      (do let i ← install' (.new key default v); (site' i).keep nested' skip; return i)) :
    AccordFrom R w w' (load nested store tell install site key default)
      (load nested' store' tell install' site' key default) := by
  have record : AccordFrom R w w' (readRecord store key default)
      (readRecord store' key default) := by
    refine read.bind fun result u u' _ _ hu => ?_
    rcases result with e | _ | bytes <;> exact .pure hu _
  refine record.bind fun result u u' _ _ hu => ?_
  cases result with
  | ok v => exact puts v false u u' hu
  | error e =>
    exact (AccordFrom.modify (tells _ u u' hu)).bind fun _ v v' _ _ hv =>
      puts default true v v' hv

end LiveState.Settings
