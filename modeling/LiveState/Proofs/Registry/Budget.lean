import Mathlib.Algebra.Order.BigOperators.Group.List
import Mathlib.Algebra.Order.Group.Nat
import LiveState.Proofs.Observable.Budget
import LiveState.Proofs.Registry.Course

/-! # What the operations of a registry cost

Besides the rules of the subscribers, the scripts of the factories set off steps.  A script runs in
one call only, and the calls of all factories are counted: until its call a script has funds, and
the call sets them free.
-/

namespace LiveState.Registry

open Course

variable {W σ η : Type} {a : Account W} {weight : σ → Nat} {limit floor : Nat}
  {nested nested' : Nested W σ}

/-! ## The funds of factories -/

/-- What the scripts of a factory may still cost, after so many calls of all factories. -/
def Factory.funds (weight : σ → Nat) (calls : Nat) (f : Factory σ η) : Nat :=
  ((f.scripts.filter (calls < ·.1)).map fun script => (script.2.map weight).sum).sum

/-- What the factories of a catalog may still cost, after so many calls. -/
def Catalog.funds (weight : σ → Nat) (calls : Nat) (k : Catalog σ η) : Nat :=
  (k.entries.map (·.2.funds weight calls)).sum

theorem Factory.funds_succ_le (weight : σ → Nat) (calls : Nat) (f : Factory σ η) :
    f.funds weight (calls + 1) + ((f.stepsAt (calls + 1)).map weight).sum ≤
      f.funds weight calls := by
  unfold funds stepsAt
  induction f.scripts with
  | nil => simp
  | cons script rest ih =>
    obtain ⟨number, steps⟩ := script
    by_cases next : number = calls + 1
    · subst next
      -- This is the script of the call; what comes after it may only become less.
      have less : ((rest.filter (calls + 1 < ·.1)).map fun s => (s.2.map weight).sum).sum ≤
          ((rest.filter (calls < ·.1)).map fun s => (s.2.map weight).sum).sum :=
        Nat.le_trans (Nat.le_add_right _ _) ih
      simp only [List.filter_cons, List.lookup_cons, beq_self_eq_true, Option.getD_some,
        Nat.lt_irrefl, decide_false, Bool.false_eq_true, if_false, Nat.lt_succ_self, decide_true,
        if_true, List.map_cons, List.sum_cons]
      omega
    · have other : (calls + 1 == number) = false := by simpa using Ne.symm next
      have same : (decide (calls + 1 < number)) = decide (calls < number) := by
        rw [decide_eq_decide]
        omega
      simp only [List.filter_cons, List.lookup_cons, other, same]
      split
      · simp only [List.map_cons, List.sum_cons]
        omega
      · exact ih

theorem Factory.funds_le (weight : σ → Nat) (calls : Nat) (f : Factory σ η) :
    f.funds weight (calls + 1) ≤ f.funds weight calls :=
  Nat.le_trans (Nat.le_add_right _ _) (f.funds_succ_le weight calls)

theorem Catalog.funds_le (weight : σ → Nat) (calls : Nat) (k : Catalog σ η) :
    k.funds weight (calls + 1) ≤ k.funds weight calls :=
  List.sum_le_sum fun e _ => e.2.funds_le weight calls

/-- The next call, by whatever factory, sets free what its script costs. -/
theorem Catalog.funds_succ_le (weight : σ → Nat) (calls : Nat) {k : Catalog σ η} {key : String}
    {factory : Factory σ η} (found : k.get? key = some factory) :
    k.funds weight (calls + 1) + ((factory.stepsAt (calls + 1)).map weight).sum ≤
      k.funds weight calls := by
  obtain ⟨entry, there, rfl⟩ := Option.map_eq_some_iff.1 found
  obtain ⟨before, after, split⟩ := List.append_of_mem (List.mem_of_find?_eq_some there)
  have first := funds_le weight calls (⟨before⟩ : Catalog σ η)
  have last := funds_le weight calls (⟨after⟩ : Catalog σ η)
  have here := entry.2.funds_succ_le weight calls
  simp only [funds, split, List.map_append, List.map_cons, List.sum_append, List.sum_cons]
    at first last ⊢
  omega

/-- Nothing has been called yet, so that the funds are no more than the scripts weigh. -/
theorem Catalog.funds_zero_le (weight : σ → Nat) (k : Catalog σ η) :
    k.funds weight 0 ≤ ((k.entries.flatMap (·.2.steps)).map weight).sum := by
  unfold funds
  induction k.entries with
  | nil => simp
  | cons e rest ih =>
    have scripts (l : List (Nat × List σ)) :
        ((l.filter (0 < ·.1)).map fun script => (script.2.map weight).sum).sum ≤
          ((l.flatMap (·.2)).map weight).sum := by
      induction l with
      | nil => simp
      | cons script rest ih =>
        simp only [List.filter_cons, List.flatMap_cons, List.map_append, List.sum_append]
        split
        · simp only [List.map_cons, List.sum_cons]
          omega
        · omega
    have here : e.2.funds weight 0 ≤ (e.2.steps.map weight).sum := scripts e.2.scripts
    simp only [List.map_cons, List.sum_cons, List.flatMap_cons, List.map_append, List.sum_append]
    omega

theorem Factory.prepare_affords
    (insides : ∀ t, a.Affords limit floor (weight t) (nested.inside t) (nested'.inside t))
    (f : Factory σ η) (number : Nat) :
    a.Affords limit floor ((f.stepsAt number).map weight).sum (f.prepare nested number)
      (f.prepare nested' number) := by
  have script := Account.Affords.forM insides (f.stepsAt number)
  intro reserve w hw
  unfold prepare
  split
  · exact (CarriesFrom.panic (Account.spare hw)).bind fun _ u ran _ => by cases ran
  · exact script reserve w hw

/-! ## Actions -/

variable {s : Site W σ η}

/-- How many steps an action on a registry may set off, apart from what its factories do. -/
def Action.cost (weight : σ → Nat) : Action σ η → Nat
  | .resolved action => action.cost weight
  | _ => 0

variable (hp : s.resolved.Funded a weight)
  (acts : ∀ name t, a.Affords limit floor (weight t) (nested.act name t) (nested'.act name t))
include hp acts

theorem Site.served (reserve : Nat) :
    s.resolved.Served (a.course limit floor reserve) (s.call nested) (s.call nested') :=
  hp.served acts fun _ => .pure _

theorem Action.perform_affords [Text.Describe η] {enrol : String → Nat → W → W}
    (hs : ∀ reserve, s.Unwatched (a.course limit floor reserve))
    (builds : ∀ reserve, s.Builds (a.course limit floor reserve) nested nested')
    (insides : ∀ t, a.Affords limit floor (weight t) (nested.inside t) (nested'.inside t))
    (enrols : ∀ name id reserve, (a.course limit floor reserve).Admits (enrol name id))
    (action : Action σ η) :
    a.Affords limit floor (action.cost weight) (action.perform s nested enrol)
      (action.perform s nested' enrol) := by
  cases action with
  | resolved action =>
    exact (Observable.Action.perform_affords hp acts insides (fun _ => .pure _) enrols action).map _
  | _ =>
    exact .free fun reserve => Action.perform_carries_of_ne_resolved (hs reserve) (builds reserve)
      (hp.unwatched.set (Site.served hp acts reserve)) (by simp)

end LiveState.Registry
