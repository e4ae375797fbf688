import LiveState.Proofs.Observable.Operations
import LiveState.Registry.Basic

/-! # Operations of a registry, case by case

What mounting a kind and altering the mapping do from a given world, in the cases that they
distinguish.
-/

namespace LiveState.Registry.Site

variable {W σ η : Type} {s : Site W σ η}

/-- The registry at a site is what was last done to it. -/
structure Lawful (s : Site W σ η) : Prop where
  registry_adjust : ∀ f w, s.registry (s.adjust f w) = f (s.registry w)
  registry_note : ∀ i w, s.registry (s.note i w) = s.registry w

theorem Lawful.resolved (hs : s.Lawful) : s.resolved.Lawful where
  cell_adjust f w := by simp only [Site.resolved, hs.registry_adjust]
  cell_note o w := by simp only [Site.resolved, hs.registry_note]

variable {nested : Nested W σ} {w : W} {key : String} {factory : Factory σ η}

/-! ## Altering the mapping -/

theorem perform_alter (n : Notice) (f : Resolved η → Resolved η) :
    (s.alter nested n f).perform w =
      (s.resolved.set (s.call nested) (f (s.resolved.cell (s.note (.notice n) w)).value)).perform
        (s.note (.notice n) w) := rfl

/-- Whoever alters a mapping that is borrowed has given notice in vain. -/
theorem Lawful.perform_alter_borrowed (hs : s.Lawful)
    (h : (s.registry w).resolved.isBorrowed = true) (n : Notice) (f : Resolved η → Resolved η) :
    (s.alter nested n f).perform w = (.error .panic, s.note (.notice n) w) := by
  have still : (s.resolved.cell (s.note (.notice n) w)).isBorrowed = true := by
    simpa only [Site.resolved, hs.registry_note] using h
  rw [perform_alter, Place.perform_set_borrowed still]

/-- The world right after the mapping has been altered. -/
def altered (s : Site W σ η) (n : Notice) (f : Resolved η → Resolved η) (w : W) : W :=
  s.resolved.committed (f (s.registry w).resolved.value) (s.note (.notice n) w)

/-- A mapping that nobody holds is altered directly after the notice, and the pass begins. -/
theorem Lawful.perform_alter_free (hs : s.Lawful)
    (h : (s.registry w).resolved.isBorrowed = false) (n : Notice) (f : Resolved η → Resolved η) :
    (s.alter nested n f).perform w =
      (s.resolved.announce (s.call nested) ((s.registry w).resolved.version + 1)
        (f (s.registry w).resolved.value) (s.registry w).resolved.listed).perform
          (s.altered n f w) := by
  have same : s.resolved.cell (s.note (.notice n) w) = (s.registry w).resolved := by
    simp only [Site.resolved, hs.registry_note]
  rw [perform_alter, hs.resolved.perform_set_free (by rw [same]; exact h), same]
  rfl

/-! ## Mounting a kind -/

/-- The world right after a factory has been called for `key`. -/
def asked (s : Site W σ η) (key : String) (w : W) : W :=
  s.note (.built key ((s.registry w).calls + 1))
    (s.adjust (fun r => { r with calls := r.calls + 1 }) w)

theorem perform_add_unknown (unknown : (s.registry w).catalog.get? key = none) :
    (s.add nested key).perform w =
      (.ok (.error (.unknownCapability key)), s.note (.notice (.rejectedUnknown key)) w) := by
  simp only [add, look, Act.perform_bind, Act.perform_view, unknown]
  rfl

theorem Lawful.perform_build (hs : s.Lawful) :
    (s.build nested key factory).perform w =
      ((fun _ => factory.make ((s.registry w).calls + 1)) <$>
        factory.prepare nested ((s.registry w).calls + 1)).perform (s.asked key w) := by
  have counted : (s.registry (s.adjust (fun r => { r with calls := r.calls + 1 }) w)).calls =
      (s.registry w).calls + 1 := by rw [hs.registry_adjust]
  simp only [build, look, jot, Act.perform_bind, Act.perform_view, Act.perform_modify, counted,
    map_eq_pure_bind]
  rw [← asked]

/-- A known kind is made by its factory, and mounted where that has left the world. -/
theorem Lawful.perform_add_known (hs : s.Lawful) (nested : Nested W σ)
    (known : (s.registry w).catalog.get? key = some factory) {number : Nat}
    (next : (s.registry w).calls + 1 = number) :
    (s.add nested key).perform w =
      match (factory.prepare nested number).perform (s.asked key w) with
      | (.ok _, u) =>
        ((fun _ => .ok ()) <$> s.alter nested (.addingCapability key)
          (·.insert key (factory.make number))).perform u
      | (.error i, u) => (.error i, u) := by
  subst next
  simp only [add, look, Act.perform_bind, Act.perform_view, known, hs.perform_build,
    Act.perform_map]
  rcases (factory.prepare nested ((s.registry w).calls + 1)).perform (s.asked key w) with
    ⟨_ | _, u⟩
  · rfl
  · rcases ran : (s.alter nested (.addingCapability key)
      (·.insert key (factory.make ((s.registry w).calls + 1)))).perform u with ⟨_ | _, _⟩ <;>
      simp [Except.map, ran]

end LiveState.Registry.Site
