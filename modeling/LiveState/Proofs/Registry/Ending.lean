import LiveState.Proofs.Registry.Budget
import LiveState.Registry.Scenario

/-! # Scenarios on a registry end

The budget of a scenario is never used up, whatever its callbacks and its factories set off: no more
steps begin than the steps and the factories weigh.
-/

namespace LiveState.Registry.Scenario

open Course

variable {η : Type}

/-! ## Weights -/

theorem stepsWeight_eq (steps : List (Step η)) :
    stepsWeight steps = (steps.map Step.weight).sum :=
  eq_sum_map (by simp [stepsWeight]) (fun _ _ => by simp [stepsWeight]) steps

theorem rulesWeight_eq (name : String) (rules : List (Rule (Step η) (Resolved η))) :
    rulesWeight rules = (Listener.script name rules).funds Step.weight := by
  refine Listener.eq_funds rfl (fun r rest => ?_) name rules
  cases r
  simp [rulesWeight, ruleWeight, stepsWeight_eq]

theorem weight_act (action : Action (Step η) η) :
    (Step.act action).weight = 1 + action.cost Step.weight := by
  cases action with
  | resolved action =>
    cases action with
    | subscribe name rules =>
      simp [Step.weight, resolvedWeight, Action.cost, Observable.Action.cost, rulesWeight_eq name]
    | _ =>
      simp [Step.weight, resolvedWeight, Action.cost, Observable.Action.cost, stepsWeight_eq]
  | _ => rfl

theorem Step.weight_pos (s : Step η) : 0 < s.weight := by
  unfold Step.weight
  split <;> omega

/-! ## The account of a world -/

def World.begun (w : World η) : Nat := w.journal.toList.countP Event.isBegan

theorem begun_record (e : Event (Step η) (Reply η) (Incident η)) (w : World η) :
    (w.record e).begun = w.begun + if e.isBegan then 1 else 0 :=
  countP_isBegan_push w.journal e

/-- How many steps the subscribers and the factories may still set off on their own. -/
def World.funds (w : World η) : Nat :=
  w.registry.resolved.funds Step.weight +
    w.registry.catalog.funds Step.weight w.registry.calls

def account (η : Type) : Account (World η) where
  spent := World.begun
  funds := World.funds
  fair _ := True
  keeps w w' := w.registry.resolved.Kept w'.registry.resolved
  refl _ := .of_callback fun _ => rfl
  trans := .trans
  remains _ := id

section

variable {limit floor reserve : Nat}

theorem site_funded : (site (η := η)).resolved.Funded (account η) Step.weight where
  cell_note _ _ := rfl
  spent_adjust _ _ := rfl
  spent_note _ w := begun_record _ w
  funds_adjust f w := by
    let factories := w.registry.catalog.funds Step.weight w.registry.calls
    show (f w.registry.resolved).funds Step.weight + factories +
        w.registry.resolved.funds Step.weight ≤
      w.registry.resolved.funds Step.weight + factories + (f w.registry.resolved).funds Step.weight
    omega
  funds_note _ _ := rfl
  keeps_adjust _ _ h := h
  keeps_note _ w := (account η).refl w
  kept h := h

/-- A change that leaves the registry and the number of steps as they are costs nothing. -/
theorem admits_free {f : World η → World η} (registry : ∀ w, (f w).registry = w.registry)
    (begun : ∀ w, (f w).begun = w.begun) : ((account η).course limit floor reserve).Admits f := by
  rintro w ⟨-, within, above⟩
  refine ⟨⟨trivial, ?_, ?_⟩, rfl, .of_callback fun _ => by rw [registry]⟩
  · simp only [account, World.funds, registry, begun] at within ⊢
    exact within
  · simp only [account, begun] at above ⊢
    exact above

theorem admits_note (i : Incident η) :
    ((account η).course limit floor reserve).Admits (site.note i) :=
  admits_free (fun _ => rfl) (begun_record _)

/-- Counting a call sets its script free. -/
theorem count_sound {w : World η} {cost : Nat}
    (freed : w.registry.catalog.funds Step.weight (w.registry.calls + 1) + cost ≤
      w.registry.catalog.funds Step.weight w.registry.calls)
    (hw : ((account η).course limit floor reserve).sound w) :
    ((account η).course limit floor (cost + reserve)).sound
      (site.adjust (fun r => { r with calls := r.calls + 1 }) w) := by
  obtain ⟨-, within, above⟩ := hw
  refine ⟨trivial, Nat.le_trans ?_ within, above⟩
  show w.begun + (w.registry.resolved.funds Step.weight +
      w.registry.catalog.funds Step.weight (w.registry.calls + 1)) + (cost + reserve) ≤
    w.begun + (w.registry.resolved.funds Step.weight +
      w.registry.catalog.funds Step.weight w.registry.calls) + reserve
  omega

theorem site_unwatched :
    (site (η := η)).Unwatched ((account η).course limit floor reserve) where
  count w hw := by
    have less := w.registry.catalog.funds_le Step.weight w.registry.calls
    have counted : ((account η).course limit floor (0 + reserve)).sound _ := count_sound less hw
    rw [Nat.zero_add] at counted
    exact ⟨counted, rfl, .of_callback fun _ => rfl⟩
  note := admits_note

variable {nested nested' : Nested (World η) (Step η)}

/-- Making a handle is free, because counting the call sets free what its script costs. -/
theorem site_builds (insides : ∀ t, (account η).Affords limit floor (Step.weight t)
      (nested.inside t) (nested'.inside t)) (reserve : Nat) :
    site.Builds ((account η).course limit floor reserve) nested nested' := by
  intro w hw key factory found
  have counted := count_sound (Catalog.funds_succ_le Step.weight w.registry.calls found) hw
  refine (CarriesFrom.modify (Account.spare counted) ⟨rfl, .of_callback fun _ => rfl⟩).bind
    fun _ u ran _ => ?_
  cases ran
  refine CarriesFrom.look ?_
  obtain ⟨noted, kept⟩ := admits_note (.built key (w.registry.calls + 1)) _ counted
  refine (CarriesFrom.modify (Account.spare noted) kept).bind fun _ u ran _ => ?_
  cases ran
  exact (Factory.prepare_affords insides factory _ reserve _ noted).bind fun _ _ _ hv => .pure hv _

end

variable [Text.Describe η]

theorem accounted : (language η).Accounted (account η) Step.weight where
  positive := Step.weight_pos
  began_spent s w := begun_record (.began s) w
  did_spent name s r w := begun_record (.did name s r) w
  inner_spent s r w := begun_record (.inner s r) w
  funds _ _ := rfl
  keeps _ w := (account η).refl w
  perform limit floor nested nested' s acts insides := by
    have subscriptions (f : World η → OrderedMap String Nat) (reserve : Nat) :
        ((account η).course limit floor reserve).Admits fun w =>
          { w with subscriptions := f w } :=
      admits_free (fun _ => rfl) fun _ => rfl
    cases s with
    | subscription name request =>
      refine .free fun reserve => Carries.look fun w hw => ?_
      cases w.subscriptions.get? name with
      | none => exact .pure hw _
      | some id =>
        exact (Subscription.Request.perform_carries (site_funded.unwatched.unsubscribe id)
          (subscriptions _ reserve) request w hw).map _
    | act action =>
      rw [weight_act, Nat.add_sub_cancel_left]
      exact (Action.perform_affords site_funded acts (fun _ => site_unwatched)
        (site_builds insides) insides (fun _ _ => subscriptions _) action).map _
    | panic => exact .free fun _ => carries_panic

omit [Text.Describe η] in
/-- In the beginning nobody has subscribed, and every script of a factory is still to come. -/
theorem spent_start (catalog : Catalog (Step η) η) :
    (World.start catalog).begun + (World.start catalog).funds ≤ catalogWeight catalog := by
  have scripts := catalog.funds_zero_le Step.weight
  rw [← stepsWeight_eq] at scripts
  have nobody : (World.start catalog).registry.resolved.funds Step.weight = 0 := rfl
  show 0 + (_ + catalog.funds Step.weight 0) ≤ _
  rw [nobody, Nat.zero_add, Nat.zero_add]
  exact scripts

/-- Scenarios end: no step is cut short, whatever its callbacks and factories set off, more budget
    makes no difference, and no more steps begin than the scenario and the catalog weigh. -/
theorem scenario_ends (catalog : Catalog (Step η) η) (steps : List (Step η)) :
    (∀ o ∈ (run catalog steps).1, Act.isExhausted o.ending = false) ∧
      (∀ extra, (language η).run (catalogWeight catalog + stepsWeight steps + extra) steps
        (World.start catalog) = run catalog steps) ∧
      (run catalog steps).2.begun ≤ catalogWeight catalog + stepsWeight steps := by
  have within : (account η).spent (World.start catalog) + (account η).funds (World.start catalog) +
      (steps.map Step.weight).sum ≤ catalogWeight catalog + stepsWeight steps := by
    rw [stepsWeight_eq]
    exact Nat.add_le_add_right (spent_start catalog) _
  have ran (extra : Nat) := accounted.run extra trivial
    (Nat.le_add_right (catalogWeight catalog + stepsWeight steps) _) within
  exact ⟨(ran 0).1, fun extra => (ran extra).2.1,
    Nat.le_trans (Nat.le_add_right _ _) (ran 0).2.2⟩

end LiveState.Registry.Scenario
