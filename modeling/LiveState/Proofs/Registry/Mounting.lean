import LiveState.Proofs.Registry.Ledger
import LiveState.Proofs.Registry.Operations

/-! # Mounting kinds and taking them out

What it comes to that a kind is mounted or taken out, whatever the steps of factories and
subscribers do.
-/

namespace LiveState.Registry.Scenario

variable {η : Type}

theorem site_lawful : (site : Site (World η) (Step η) η).Lawful := ⟨fun _ _ => rfl, fun _ _ => rfl⟩

/-! ## One operation -/

/-- Notice `n` is given in `w` and operation `o` follows it at once, with one change of the mapping,
    after which nothing panics; or else the mapping is borrowed, and the notice is all. -/
def Follows (nested : Nested (World η) (Step η)) (n : Notice) (o : Operation η) (w : World η)
    (ending : Except Interrupt Unit) (v : World η) : Prop :=
  if w.registry.resolved.isBorrowed then
    ending = .error .panic ∧ v = w.record (.happened (.notice n))
  else
    (site.altered n o.apply w).ledger.operations = w.ledger.operations ++ [o] ∧
      (site.resolved.announce (site.call nested) (w.registry.resolved.version + 1)
        (o.apply w.registry.resolved.value) w.registry.resolved.listed).perform
          (site.altered n o.apply w) = (ending, v) ∧
      ending ≠ .error .panic

theorem alter_follows (nested : Nested (World η) (Step η)) {n : Notice} {o : Operation η}
    {w : World η}
    (led : Operation.leadingTo (o.apply w.registry.resolved.value)
      (w.ledger.enter (.happened (.notice n))).announced = o)
    (quiet : (w.ledger.enter (.happened (.notice n))).operations = w.ledger.operations) :
    Follows nested n o w ((site.alter nested n o.apply).perform w).1
      ((site.alter nested n o.apply).perform w).2 := by
  have taken : (site.altered n o.apply w).ledger =
      (w.ledger.enter (.happened (.notice n))).enter
        (Line.committed (w.registry.resolved.version + 1) (o.apply w.registry.resolved.value)) := by
    rw [← World.ledger_record]
    exact World.ledger_record _ _
  unfold Follows
  split
  · next borrowed =>
    rw [site_lawful.perform_alter_borrowed borrowed]
    exact ⟨rfl, rfl⟩
  · next free =>
    have free' : w.registry.resolved.isBorrowed = false := by simpa using free
    rw [site_lawful.perform_alter_free free']
    refine ⟨?_, rfl, Place.announce_ne_panic _ _ _ _⟩
    rw [taken]
    show (w.ledger.enter (.happened (.notice n))).operations ++ [.leadingTo _ _] = _
    rw [led, quiet]

/-! ## Kinds -/

/-- Taking out the kind `key` is one operation. -/
def Unmounts (nested : Nested (World η) (Step η)) (key : String) (w : World η) : Prop :=
  ∃ ending v, (site.remove nested key).perform w = (ending, v) ∧
    Follows nested (.removingCapability key) (.drop key) w ending v

theorem remove_unmounts (nested : Nested (World η) (Step η)) (key : String) (w : World η) :
    Unmounts nested key w :=
  ⟨_, _, rfl, alter_follows nested rfl rfl⟩

/-- Mounting the kind `key` begins with one call of its factory, and if that is interrupted, it has
    come to its end.  Otherwise it is one operation more, in the world that the factory has left.
    Of an unknown kind nothing remains but a notice. -/
def Mounts (nested : Nested (World η) (Step η)) (key : String) (w : World η) : Prop :=
  match w.registry.catalog.get? key with
  | none =>
    (site.add nested key).perform w = (.ok (.error (.unknownCapability key)),
      w.record (.happened (.notice (.rejectedUnknown key))))
  | some factory =>
    match (factory.prepare nested (w.registry.calls + 1)).perform (site.asked key w) with
    | (.error i, u) => (site.add nested key).perform w = (.error i, u)
    | (.ok _, u) =>
      ∃ ending v, (site.add nested key).perform w = (ending.map fun _ => .ok (), v) ∧
        Follows nested (.addingCapability key) (.put key (factory.make (w.registry.calls + 1))) u
          ending v

theorem add_mounts (nested : Nested (World η) (Step η)) (key : String) (w : World η) :
    Mounts nested key w := by
  unfold Mounts
  cases found : w.registry.catalog.get? key with
  | none => exact Site.perform_add_unknown found
  | some factory =>
    have next : (site.registry w).calls + 1 = w.registry.calls + 1 := rfl
    have mounting := site_lawful.perform_add_known nested found next
    dsimp only
    rcases ran : (factory.prepare nested (w.registry.calls + 1)).perform (site.asked key w) with
      ⟨i | _, u⟩ <;> rw [ran] at mounting
    · exact mounting
    · exact ⟨_, _, mounting.trans (Act.perform_map _ _ _),
        alter_follows nested (Operation.leadingTo_insert _ _ _) rfl⟩

end LiveState.Registry.Scenario
