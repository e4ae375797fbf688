import LiveState.Proofs.Observable.Course
import LiveState.Proofs.Observable.Operations
import LiveState.Settings.Basic

/-! # Settings records and courses

What loading, changing and writing back a settings record has to do with a course.
-/

namespace LiveState.Settings

open Course

variable {W σ ρ ι : Type} {c : Course W} [Record ρ]

namespace Site

variable {s : Site W σ ρ}

theorem writeBack_carriesFrom {w : W} (hw : c.sound w) (tell : ∀ n, c.Admits (s.note (.notice n)))
    (write : ∀ key bytes, c.CarriesFrom w (s.store.write key bytes) (s.store.write key bytes))
    (v : ρ) : c.CarriesFrom w (s.writeBack v) (s.writeBack v) := by
  refine CarriesFrom.look ?_
  cases encode v with
  | error e => exact (tell _).carries w hw
  | ok bytes =>
    refine (write _ bytes).bind fun result u _ hu => ?_
    -- Every failure is told, and nothing else is done about it.
    rcases result with (_ | _ | _) | _
    · exact (tell _).carries u hu
    · exact (tell _).carries u hu
    · exact (tell _).carries u hu
    · exact .pure hu ()

theorem writeBack_carries (tell : ∀ n, c.Admits (s.note (.notice n)))
    (write : ∀ key bytes, c.Carries (s.store.write key bytes) (s.store.write key bytes)) (v : ρ) :
    c.Carries (s.writeBack v) (s.writeBack v) :=
  fun w hw => writeBack_carriesFrom hw tell (fun key bytes => write key bytes w hw) v

/-- How the turn of a subscriber that writes back ends. -/
theorem perform_deliver (nested : Nested W σ) {id : Nat} {w : W}
    (found : (s.value.cell w).callback? id = some (.keeper false)) (pass : Option Nat) (v : ρ) :
    (s.value.deliver (s.call nested) pass id v).perform w =
      match (s.writeBack v).perform (s.value.note (.called pass id v) w) with
      | (.ok _, u) => (.ok (), s.value.note (.returned pass id) u)
      | (.error .panic, u) => (.ok (), s.value.note (.faulted pass id) u)
      | (.error .exhausted, u) => (.error .exhausted, u) :=
  -- A keeper does nothing but to write back.
  Place.perform_deliver found pass v

end Site

theorem readRecord_carries {store : Store W} (key : String)
    (read : c.Carries (store.read key) (store.read key)) (default : ρ) :
    c.Carries (readRecord store key default) (readRecord store key default) := by
  refine read.bind fun result => ?_
  rcases result with e | _ | bytes <;> exact carries_pure _

theorem Site.keep_carries {s : Site W σ ρ} {nested nested' : Nested W σ} {allowed : σ → Prop}
    (hp : s.value.Steady c (Listener.Within allowed) (s.call nested) (s.call nested'))
    (skip : Bool) : c.Carries (s.keep nested skip) (s.keep nested' skip) :=
  (hp.subscribe _ (by simp [Listener.Within, Listener.rules])).bind fun _ => carries_pure _

/-- A record that was loaded was read or given up, put in, and kept. -/
theorem load_ok {nested : Nested W σ} {store : Store W} {tell : Notice → W → W}
    {install : Settings σ ρ → Act W ι} {site : ι → Site W σ ρ} {key : String} {default : ρ}
    {w w' : W} {i : ι}
    (h : (load nested store tell install site key default).perform w = (.ok i, w')) :
    ∃ result u, (readRecord store key default).perform w = (.ok result, u) ∧
      match result with
      | .ok v => ∃ u', (install (.new key default v)).perform u = (.ok i, u') ∧
          ((site i).keep nested false).perform u' = (.ok (), w')
      | .error e => ∃ u', (install (.new key default default)).perform
            (tell (.fellBackToDefault key e) u) = (.ok i, u') ∧
          ((site i).keep nested true).perform u' = (.ok (), w') := by
  obtain ⟨result, u, read, h⟩ := Act.perform_bind_ok h
  refine ⟨result, u, read, ?_⟩
  cases result with
  | ok v =>
    obtain ⟨j, u', installed, h⟩ := Act.perform_bind_ok h
    obtain ⟨⟨⟩, u'', kept, h⟩ := Act.perform_bind_ok h
    cases h
    exact ⟨u', installed, kept⟩
  | error e =>
    obtain ⟨⟨⟩, u', told, h⟩ := Act.perform_bind_ok h
    cases told
    obtain ⟨j, u', installed, h⟩ := Act.perform_bind_ok h
    obtain ⟨⟨⟩, u'', kept, h⟩ := Act.perform_bind_ok h
    cases h
    exact ⟨u', installed, kept⟩

/-- After a record was read or given up, it is put in and kept. -/
theorem perform_load {nested : Nested W σ} {store : Store W} {tell : Notice → W → W}
    {install : Settings σ ρ → Act W ι} {site : ι → Site W σ ρ} {key : String} {default : ρ}
    {w u : W} {result : Except LoadError ρ}
    (read : (readRecord store key default).perform w = (.ok result, u)) :
    (load nested store tell install site key default).perform w =
      match result with
      | .ok v => (install (.new key default v) >>= fun i =>
          (site i).keep nested false >>= fun _ => pure i).perform u
      | .error e => (install (.new key default default) >>= fun i =>
          (site i).keep nested true >>= fun _ => pure i).perform
            (tell (.fellBackToDefault key e) u) := by
  cases result with
  | ok v => exact (Act.perform_bind_of_ok read).trans rfl
  | error e => exact (Act.perform_bind_of_ok read).trans rfl

section Load

variable {nested nested' : Nested W σ} {store : Store W} {tell : Notice → W → W}
  {install : Settings σ ρ → Act W ι} {site : ι → Site W σ ρ} {key : String} {default : ρ}

theorem load_carries_of_keeps (read : c.Carries (store.read key) (store.read key))
    (tells : ∀ n, c.Admits (tell n))
    (keeps : ∀ v skip, c.Carries
      (install (.new key default v) >>= fun i => (site i).keep nested skip >>= fun _ => pure i)
      (install (.new key default v) >>= fun i => (site i).keep nested' skip >>= fun _ => pure i)) :
    c.Carries (load nested store tell install site key default)
      (load nested' store tell install site key default) := by
  refine (readRecord_carries key read default).bind fun result => ?_
  cases result with
  | ok v => exact keeps _ false
  | error e => exact (tells _).carries.bind fun _ => keeps _ true

theorem load_carries (read : c.Carries (store.read key) (store.read key))
    (tells : ∀ n, c.Admits (tell n)) (installs : ∀ s, c.Carries (install s) (install s))
    (keeps : ∀ i skip, c.Carries ((site i).keep nested skip) ((site i).keep nested' skip)) :
    c.Carries (load nested store tell install site key default)
      (load nested' store tell install site key default) :=
  load_carries_of_keeps read tells fun _ skip =>
    (installs _).bind fun i => (keeps i skip).bind fun _ => carries_pure i

end Load

namespace Action

variable {allowed : σ → Prop} {s : Site W σ ρ}

def steps : Action σ ρ → List σ
  | .value action => action.steps
  | .reset | .key | .default | .describe _ => []

def Within (allowed : σ → Prop) (action : Action σ ρ) : Prop := ∀ s ∈ action.steps, allowed s

theorem perform_carries [Text.Describe ρ] {nested nested' : Nested W σ}
    {enrol : String → Nat → W → W} (hn : Nested.Carried c allowed nested nested')
    (hp : s.value.Steady c (Listener.IsScript allowed) (s.call nested) (s.call nested'))
    (he : ∀ name w, c.sound w → ∀ rules id w',
      (s.value.subscribe (s.call nested) (.script name rules)).perform w = (.ok id, w') →
        c.sound w' → c.sound (enrol name id w') ∧ c.leads false w' (enrol name id w'))
    (action : Action σ ρ) (ha : action.Within allowed) :
    c.Carries (action.perform s nested enrol) (action.perform s nested' enrol) := by
  cases action with
  | value action => exact (Observable.Action.perform_carries hn hp he action ha).map _
  | reset =>
    refine Carries.bind (Carries.look fun w hw => hp.set _ w hw) fun _ => carries_pure _
  | key | default => exact (carries_view _).map _
  | describe pretty => exact Carries.look fun w hw => .pure hw _

end Action

end LiveState.Settings
