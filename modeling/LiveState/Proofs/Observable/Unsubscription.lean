import LiveState.Proofs.Observable.Delivery
import LiveState.Proofs.Observable.Silence

/-! # Unsubscription

Ending a subscription is final, wherever it is done.
-/

namespace LiveState

namespace Observable.Scenario

open Course

variable {n : Nat} {α : Type}

/-! ## Borrowed values are given back -/

/-- The course on which every borrowed value is given back. -/
def balanced (n : Nat) (α : Type) : Course (World n α) where
  sound _ := True
  leads _ w w' := ∀ i : Fin n, w'[i].borrows = w[i].borrows
  refl _ _ := rfl
  trans h k i := (k i).trans (h i)

theorem admits_balanced {f : World n α → World n α}
    (h : ∀ w (i : Fin n), (f w)[i].borrows = w[i].borrows) :
    (balanced n α).Admits f := fun w _ => ⟨trivial, h w⟩

theorem admits_adjust_balanced (i : Fin n)
    {f : Observable α (Listener (Step α) α) → Observable α (Listener (Step α) α)}
    (h : ∀ o, (f o).borrows = o.borrows) : (balanced n α).Admits ((place i).adjust f) := by
  refine admits_balanced fun w j => ?_
  rw [getElem_adjust]
  split
  · next same => rw [h, same]
  · rfl

theorem unwatched_balanced (i : Fin n) : (place i).Unwatched (balanced n α) where
  store _ := admits_adjust_balanced i fun _ => rfl
  silence _ := admits_adjust_balanced i fun _ => rfl
  delist _ := admits_adjust_balanced i fun _ => rfl
  note _ := admits_balanced fun _ _ => rfl

variable [Text.Describe α]

/-- Scenarios give back every value that they borrow. -/
theorem heeds_balanced : (language n α).Heeds (balanced n α) fun _ => True := by
  refine heeds_of_unwatched (fun _ _ _ => rfl)
    ⟨fun _ => admits_balanced fun _ _ => rfl, fun _ => admits_balanced fun _ _ => rfl⟩
    (fun _ => admits_balanced fun _ _ => rfl) unwatched_balanced
    (fun i _ _ => admits_adjust_balanced i fun _ => rfl)
    (fun i _ => admits_adjust_balanced i fun _ => rfl) fun i m m' h w _ => ?_
  obtain ⟨same, -, leads⟩ := h ((place i).adjust (·.borrow) w) trivial
  constructor <;> simp only [Place.perform_borrowing, same]
  · trivial
  · intro j
    -- Inside the value was held once more than outside.
    have level := leads j
    rw [getElem_adjust] at level ⊢
    split
    · next here =>
      subst here
      rw [if_pos rfl] at level
      exact congrArg (· - 1) level
    · next other => rw [level, if_neg other]

/-- Between the steps of a run nobody holds a value borrowed, whatever the budget. -/
theorem run_level (budget : Nat) (values : Vector α n) (steps : List (Step α)) (i : Fin n) :
    ((language n α).run budget steps (World.start values)).2[i].isBorrowed = false := by
  obtain ⟨-, -, b, leads, -⟩ := (heeds_balanced (n := n) (α := α)).run (P := fun _ => True)
    (fun _ _ => trivial) budget (fun _ _ => trivial) (w := World.start values) trivial
  have level : ((language n α).run budget steps (World.start values)).2[i].borrows =
      (World.start values)[i].borrows := leads i
  rw [isBorrowed, level, getElem_start]
  rfl

theorem perform_exec_subscription {budget id : Nat} {name : String} {i : Fin n} {w : World n α}
    (kept : w.subscriptions.get? name = some (i, id)) (request : Subscription.Request) :
    ((language n α).exec (budget + 1) (.subscription name request)).perform w =
      (Reply.subscription <$> request.perform (place i) id fun w =>
        { w with subscriptions := w.subscriptions.erase name }).perform
          (w.record (.began (.subscription name request))) := by
  have kept' : (w.record (.began (.subscription name request))).subscriptions.get? name =
      some (i, id) := kept
  simp only [Language.exec, Act.perform_bind]
  simp only [language, perform, Act.perform_modify, Act.perform_bind, Act.perform_view, kept']

omit [Text.Describe α] in
theorem perform_request_unsubscribe (i : Fin n) (id : Nat) (forget : World n α → World n α) :
    Subscription.Request.unsubscribe.perform (place i) id forget =
      (fun _ => Subscription.Answer.done) <$> (place i).unsubscribe id :=
  (map_eq_pure_bind _ _).symm

end Observable.Scenario

end LiveState
