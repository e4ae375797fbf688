import LiveState.Proofs.Observable.Budget
import LiveState.Proofs.Observable.Scenario

/-! # Scenarios end

The budget of a scenario on observables is never used up: no more steps begin than its steps weigh,
and a larger budget would make no difference.
-/

namespace LiveState.Observable.Scenario

open Course

variable {n : Nat} {α : Type}

/-! ## Weights -/

theorem stepsWeight_eq (steps : List (Step α)) :
    stepsWeight steps = (steps.map Step.weight).sum :=
  eq_sum_map (by simp [stepsWeight]) (fun _ _ => by simp [stepsWeight]) steps

theorem rulesWeight_eq (name : String) (rules : List (Rule (Step α) α)) :
    rulesWeight rules = (Listener.script name rules).funds Step.weight := by
  refine Listener.eq_funds rfl (fun r rest => ?_) name rules
  cases r
  simp [rulesWeight, ruleWeight, stepsWeight_eq]

theorem actionWeight_eq (action : Action (Step α) α) :
    actionWeight action = action.cost Step.weight := by
  cases action with
  | update f faulty inner | replaceWith f faulty inner | borrow inner =>
    simp [actionWeight, Action.cost, stepsWeight_eq]
  | subscribe name rules => simp [actionWeight, Action.cost, rulesWeight_eq name]
  | get | version | describe | set => simp [actionWeight, Action.cost]

theorem Step.weight_pos (s : Step α) : 0 < s.weight := by
  cases s <;> simp only [Step.weight] <;> omega

/-! ## The account of a world -/

def World.begun (w : World n α) : Nat := w.journal.toList.countP Event.isBegan

theorem begun_record (e : Event (Step α) (Reply α) (Fin n × Occurrence α)) (w : World n α) :
    (w.record e).begun = w.begun + if e.isBegan then 1 else 0 :=
  countP_isBegan_push w.journal e

def account (n : Nat) (α : Type) : Account (World n α) where
  spent := World.begun
  funds w := (w.cells.toList.map (·.funds Step.weight)).sum
  fair _ := True
  keeps w w' := ∀ i : Fin n, w[i].Kept w'[i]
  refl w i := .of_callback fun _ => rfl
  trans h k i := (h i).trans (k i)
  remains _ := id

theorem funded (i : Fin n) : (place (α := α) i).Funded (account n α) Step.weight where
  cell_note := (recorded i).toLawful.cell_note
  spent_adjust f w := rfl
  spent_note o w := by simp [account, place, begun_record, Event.isBegan]
  funds_adjust f w := by
    have here : w.cells.toList[i.val]? = some w[i] := by simp [getElem_cells]
    have moved := sum_map_modify here (fun _ => f w[i]) (·.funds Step.weight)
    -- Replacing one cell changes one summand.
    have set : ((place i).adjust f w).cells.toList =
        w.cells.toList.modify i fun _ => f w[i] := by
      refine List.ext_getElem? fun j => ?_
      simp only [place, Vector.toList_set, List.getElem?_set, List.getElem?_modify]
      by_cases same : i.val = j
      · subst same
        simp [getElem_cells]
      · simp [same]
    show ((((place i).adjust f w).cells.toList.map _).sum + _ : Nat) ≤ _
    rw [set]
    exact Nat.le_of_eq moved
  funds_note o w := rfl
  keeps_adjust f w h j := by
    by_cases same : i = j
    · subst same
      rw [getElem_adjust, if_pos rfl]
      exact h
    · rw [getElem_adjust, if_neg same]
      exact .of_callback fun _ => rfl
  keeps_note o w := (account n α).refl w
  kept h := h i

/-- A change that leaves the observables and the number of steps as they are costs nothing. -/
theorem admits_free {limit floor reserve : Nat} {f : World n α → World n α}
    (cells : ∀ w, (f w).cells = w.cells) (begun : ∀ w, (f w).begun = w.begun) :
    ((account n α).course limit floor reserve).Admits f := by
  rintro w ⟨-, within, above⟩
  have same (i : Fin n) : (f w)[i] = w[i] := by rw [← getElem_cells, ← getElem_cells, cells]
  refine ⟨⟨trivial, ?_, ?_⟩, rfl, fun i => .of_callback fun _ => by rw [same]⟩
  · simp only [account, cells, begun] at within ⊢
    exact within
  · simp only [account, begun] at above ⊢
    exact above

theorem accounted [Text.Describe α] :
    (language n α).Accounted (account n α) Step.weight where
  positive := Step.weight_pos
  began_spent s w := by simp [account, language, begun_record, Event.isBegan]
  did_spent name s r w := by simp [account, language, begun_record, Event.isBegan]
  inner_spent s r w := by simp [account, language, begun_record, Event.isBegan]
  funds e w := rfl
  keeps e w := (account n α).refl w
  perform limit floor nested nested' s acts insides := by
    have clerical (reserve : Nat) : Clerical ((account n α).course limit floor reserve) :=
      ⟨fun f => admits_free (fun _ => rfl) fun _ => rfl,
        fun f => admits_free (fun _ => rfl) fun _ => rfl⟩
    cases s with
    | act handle action =>
      have weight : (Step.act handle action).weight - 1 = action.cost Step.weight := by
        simp [Step.weight, actionWeight_eq]
      rw [weight]
      intro reserve w hw
      refine withHandle_carriesFrom (Account.spare hw) (fun i => CarriesFrom.map ?_ _) handle
      exact Action.perform_affords (funded i) acts insides
        (fun _ => .free fun _ w hw => .pure hw ())
        (fun _ _ reserve => (clerical reserve).subscriptions _) action reserve w hw
    | subscription | clone | drop | panic =>
      refine .free fun reserve => ?_
      exact perform_carries_of_ne_act (clerical reserve)
        (fun i => (funded i).unwatched.unsubscribe) nested nested'
        (fun _ _ => by simp)

theorem spent_start (values : Vector α n) :
    (account n α).spent (World.start values) + (account n α).funds (World.start values) = 0 := by
  have empty (v : α) : (Observable.new v : Observable α (Listener (Step α) α)).funds
      Step.weight = 0 := rfl
  simp only [account, World.start, World.begun, Vector.toList_map, List.map_map,
    Function.comp_def, empty, List.map_const', List.sum_replicate_nat, Nat.mul_zero,
    List.countP_nil, Nat.add_zero]

/-- The budget of a scenario is never used up, more of it makes no difference, and no more is spent
    than the steps weigh. -/
theorem run_affords [Text.Describe α] (values : Vector α n) (steps : List (Step α)) :
    (∀ o ∈ (run values steps).1, Act.isExhausted o.ending = false) ∧
      (∀ extra, (language n α).run (stepsWeight steps + extra) steps (World.start values) =
        run values steps) ∧
      (account n α).spent (run values steps).2 + (account n α).funds (run values steps).2 ≤
        stepsWeight steps := by
  have within : (account n α).spent (World.start values) +
      (account n α).funds (World.start values) + (steps.map Step.weight).sum ≤
        stepsWeight steps :=
    Nat.le_of_eq (by rw [spent_start, Nat.zero_add, stepsWeight_eq])
  have ran (extra : Nat) := accounted.run extra trivial (Nat.le_add_right (stepsWeight steps) _)
    within
  exact ⟨(ran 0).1, fun extra => (ran extra).2.1, (ran 0).2.2⟩

/-- Scenarios end: no step is cut short, whatever its callbacks set off, more budget makes no
    difference, and no more steps begin than the scenario weighs. -/
theorem run_ends [Text.Describe α] (values : Vector α n) (steps : List (Step α)) :
    (∀ o ∈ (run values steps).1, Act.isExhausted o.ending = false) ∧
      (∀ extra, (language n α).run (stepsWeight steps + extra) steps (World.start values) =
        run values steps) ∧
      (run values steps).2.begun ≤ stepsWeight steps := by
  obtain ⟨whole, more, within⟩ := run_affords values steps
  exact ⟨whole, more, Nat.le_trans (Nat.le_add_right _ _) within⟩

theorem start_agrees (values : Vector α n) (i : Fin n) :
    History.Ready (values.get i) ((place i).cell (World.start values))
      ((World.start values).history i) := by
  have cell : (place i).cell (World.start values) = Observable.new (values.get i) :=
    getElem_start values i
  rw [cell]
  exact ⟨.new _, .start⟩

/-- After a run every observable agrees with its history, and the history is well formed. -/
theorem run_chronicle [Text.Describe α] (values : Vector α n) (steps : List (Step α)) (i : Fin n) :
    History.Agrees (values.get i) (run values steps).2[i] ((run values steps).2.history i) ∧
      Episode (values.get i) [] ((run values steps).2.history i) := by
  obtain ⟨-, agrees, b, leads, used⟩ := (heeds_chronicle i (values.get i)).run (P := fun _ => True)
    (fun _ _ => trivial) (stepsWeight steps) (fun _ _ => trivial) (start_agrees values i)
  -- Nothing was cut short, so that what has happened is well formed.
  have whole : b = false := by
    refine Bool.eq_false_iff.2 fun hb => ?_
    obtain ⟨o, ho, cut⟩ := used hb
    have := (run_affords values steps).1 o ho
    rw [this] at cut
    cases cut
  obtain ⟨s, hs, episode⟩ := leads whole
  rw [show (World.start values).history i = [] from rfl, List.nil_append] at hs
  subst hs
  exact ⟨agrees.toAgrees, episode⟩

end LiveState.Observable.Scenario
