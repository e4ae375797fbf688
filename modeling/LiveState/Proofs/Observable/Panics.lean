import LiveState.Proofs.Observable.Chain
import LiveState.Proofs.Observable.Held

/-! # Panics

Whoever changes a value that is held panics, and so may the steps inside a change and the callbacks.
Nothing is rolled back then, but no change is left half done, and no value stays borrowed.
-/

namespace LiveState.Observable.Scenario

open Course

variable {n : Nat} {α : Type}

/-- Actions that set the value to what `f` makes of the one before, after the steps `inner`. -/
def Applies (f : α → α) (faulty : Bool) (inner : List (Step α)) (action : Action (Step α) α) :
    Prop :=
  action = .update f faulty inner ∨ action = .replaceWith f faulty inner

variable [Text.Describe α] {budget handle : Nat} {i : Fin n} {w : World n α}

/-! ## Changes through steps -/

theorem exec_applies {action : Action (Step α) α} {f : α → α} {faulty : Bool}
    {inner : List (Step α)} (reaches : w.target? handle = some i)
    (applies : Applies f faulty inner action) :
    ((language n α).exec (budget + 1) (.act handle action)).perform w =
      match ((language n α).runInside budget inner).perform
        (w.record (.began (.act handle action))) with
      | (.ok _, u) =>
        if faulty then (.error .panic, u)
        else ((fun _ => Reply.observable .done) <$> (place i).set (Listener.hear (place i)
          ((language n α).nested ((language n α).exec budget)).act fun _ => pure ())
          (f w[i].value)).perform u
      | (.error x, u) => (.error x, u) := by
  have update : action.perform (place i) ((language n α).nested ((language n α).exec budget))
      (fun _ => pure ()) (World.enrol i) = (fun _ => Answer.done) <$> (place i).update
        (Listener.hear (place i) ((language n α).nested ((language n α).exec budget)).act
          fun _ => pure ()) f faulty ((language n α).runInside budget inner) := by
    rcases applies with rfl | rfl <;> exact (map_eq_pure_bind _ _).symm
  rw [perform_exec_act reaches, update, Act.perform_map, Act.perform_map, Place.perform_update]
  rcases ((language n α).runInside budget inner).perform (w.record (.began (.act handle action)))
    with ⟨_ | _, u⟩
  · rfl
  · cases faulty with
    | true => rfl
    | false =>
      simp only [Bool.false_eq_true, if_false, Act.perform_map]
      have value : ((place i).cell (w.record (.began (.act handle action)))).value =
        w[i].value := rfl
      rw [value]
      rcases ((place i).set _ _).perform u with ⟨_ | _, _⟩ <;> rfl

/-- If the steps inside or the computation of the new value panic, nothing is done but what these
    steps have done. -/
structure World.Abandons (budget : Nat) (i : Fin n) (w : World n α) : Prop where
  inside : ∀ handle action f faulty inner x u, w.target? handle = some i →
    Applies f faulty inner action →
    ((language n α).runInside budget inner).perform (w.record (.began (.act handle action))) =
      (.error x, u) →
        ((language n α).exec (budget + 1) (.act handle action)).perform w = (.error x, u)
  faulty : ∀ handle action f inner u, w.target? handle = some i → Applies f true inner action →
    ((language n α).runInside budget inner).perform (w.record (.began (.act handle action))) =
      (.ok (), u) →
        ((language n α).exec (budget + 1) (.act handle action)).perform w = (.error .panic, u)

theorem World.abandons (budget : Nat) (i : Fin n) (w : World n α) : w.Abandons budget i where
  inside handle action f faulty inner x u reaches applies ran := by
    rw [exec_applies reaches applies, ran]
  faulty handle action f inner u reaches applies ran := by
    rw [exec_applies reaches applies, ran]
    rfl

/-! ## Held values -/

/-- What happens to changes of a value that is held. -/
structure World.Refuses (budget : Nat) (i : Fin n) (w : World n α) : Prop where
  set : ∀ handle v, w.target? handle = some i →
    ((language n α).exec (budget + 1) (.act handle (.set v))).perform w =
      (.error .panic, w.record (.began (.act handle (.set v))))
  subscribe : ∀ handle name rules, w.target? handle = some i →
    ((language n α).exec (budget + 1) (.act handle (.subscribe name rules))).perform w =
      (.error .panic, w.record (.began (.act handle (.subscribe name rules))))
  /-- The steps inside are performed, and then there is a panic, unless there was one before. -/
  update : ∀ handle action f faulty inner, w.target? handle = some i →
    Applies f faulty inner action →
      ∃ x u, ((language n α).exec (budget + 1) (.act handle action)).perform w = (.error x, u) ∧
        (x = .panic ∨ Act.isExhausted (((language n α).runInside budget inner).perform
          (w.record (.began (.act handle action)))).1 = true) ∧
        Unmoved i w u
  /-- Whoever is unsubscribed is not active any more, but stays on the list. -/
  unsubscribe : ∀ name id, w.subscriptions.get? name = some (i, id) →
    w[i].isActive id = true →
      ((language n α).exec (budget + 1) (.subscription name .unsubscribe)).perform w =
        (.error .panic, (place i).hushed id (w.record (.began (.subscription name .unsubscribe))))

theorem World.refuses (budget : Nat) (held : w[i].isBorrowed = true) :
    w.Refuses budget i := by
  have began (s : Step α) : (Scenario.held i w).sound (w.record (.began s)) :=
    ((heeds_held i w).began s w ⟨held, .refl i w⟩).1
  refine ⟨fun handle v reaches => ?_, fun handle name rules reaches => ?_,
    fun handle action f faulty inner reaches applies => ?_, fun name id kept on => ?_⟩
  · rw [perform_exec_act reaches, Act.perform_map, Action.perform, Act.perform_bind,
      Place.perform_set_borrowed (began _).1]
    rfl
  · rw [perform_exec_act reaches, Act.perform_map, Action.perform, Act.perform_bind,
      Place.perform_subscribe_borrowed (began _).1]
    rfl
  · -- Whatever the steps inside do, the value is held until they have come to their ends.
    have inside : (language n α).ThroughoutInside (Scenario.held i w).sound budget inner _ :=
      (heeds_held i w).throughoutInside (fun _ h => h) budget (fun _ _ => trivial)
        (began (.act handle action))
    have still := inside.2
    rw [exec_applies reaches applies]
    rcases ran : ((language n α).runInside budget inner).perform
      (w.record (.began (.act handle action))) with ⟨x | _, u⟩ <;> rw [ran] at still
    · refine ⟨x, u, rfl, ?_, still.2⟩
      cases x with
      | panic => exact .inl rfl
      | exhausted => exact .inr rfl
    · refine ⟨.panic, u, ?_, .inl rfl, still.2⟩
      cases faulty with
      | true => rfl
      | false =>
        show ((fun _ => _) <$> (place i).set _ _).perform u = _
        rw [Act.perform_map, Place.perform_set_borrowed still.1]
        rfl
  · have silenced := (recorded i).perform_unsubscribe_borrowed
      (w := w.record (.began (.subscription name .unsubscribe))) on (began _).1
    rw [perform_exec_subscription kept, Act.perform_map, Subscription.Request.perform,
      Act.perform_bind, silenced]
    rfl

/-- What reading a value does, whether it is held or not. -/
structure World.Reads (budget : Nat) (i : Fin n) (w : World n α) : Prop where
  get : ∀ handle, w.target? handle = some i →
    ((language n α).exec (budget + 1) (.act handle .get)).perform w =
      (.ok (.observable (.value w[i].value)), w.record (.began (.act handle .get)))
  version : ∀ handle, w.target? handle = some i →
    ((language n α).exec (budget + 1) (.act handle .version)).perform w =
      (.ok (.observable (.version w[i].version)), w.record (.began (.act handle .version)))
  describe : ∀ handle pretty, w.target? handle = some i →
    ((language n α).exec (budget + 1) (.act handle (.describe pretty))).perform w =
      (.ok (.observable (.text ((Text.describe w[i]).render pretty))),
        w.record (.began (.act handle (.describe pretty))))
  /-- The value is held while the steps inside run, and is given back when they have ended, however
      they do. -/
  borrow : ∀ handle inner, w.target? handle = some i →
    let u := (place i).adjust (·.borrow) (w.record (.began (.act handle (.borrow inner))))
    let ran := ((language n α).runInside budget inner).perform u
    ((language n α).exec (budget + 1) (.act handle (.borrow inner))).perform w =
        (ran.1.map fun _ => .observable (.value w[i].value),
          (place i).adjust (·.release) ran.2) ∧
      (language n α).ThroughoutInside
        (fun v => v[i].isBorrowed = true ∧ Unmoved i w v) budget inner u

theorem World.reads (budget : Nat) (i : Fin n) (w : World n α) : w.Reads budget i := by
  refine ⟨fun handle reaches => ?_, fun handle reaches => ?_, fun handle pretty reaches => ?_,
    fun handle inner reaches => ⟨?_, ?_⟩⟩
  · rw [perform_exec_act reaches]
    rfl
  · rw [perform_exec_act reaches]
    rfl
  · rw [perform_exec_act reaches]
    rfl
  · rw [perform_exec_act reaches, Act.perform_map, Action.perform, Act.perform_map,
      ← Language.runInside, Place.perform_borrowing]
    rcases ((language n α).runInside budget inner).perform _ with ⟨_ | _, _⟩ <;> rfl
  · have began : Unmoved i w (w.record (.began (.act handle (.borrow inner)))) :=
      (Unmoved.refl i w).congr (by simp [history_record, occurrence?]) ⟨w[i].borrows, rfl⟩
    exact (heeds_held i w).throughoutInside (fun _ h => h) budget (fun _ _ => trivial)
      (held_borrow began)

/-! ## After a panic -/

/-- However a step ends, every value is given back that was borrowed meanwhile; and so it is when a
    callback has been called, whose panics are caught. -/
structure World.GivesBack (budget : Nat) (w : World n α) : Prop where
  step : ∀ s (j : Fin n), (((language n α).exec budget s).perform w).2[j].borrows =
    w[j].borrows
  call : ∀ (k : Fin n) pass id v,
    let ran := ((place k).deliver (Listener.hear (place k)
      ((language n α).nested ((language n α).exec budget)).act fun _ => pure ()) pass id v).perform w
    ran.1 ≠ .error .panic ∧ ∀ j : Fin n, ran.2[j].borrows = w[j].borrows

theorem World.givesBack (budget : Nat) (w : World n α) : w.GivesBack budget := by
  have balance := heeds_balanced (n := n) (α := α)
  have exec := balance.exec (P := fun _ => True) (fun _ _ => trivial) budget
  refine ⟨fun s => (exec s trivial w trivial).leads, fun k pass id v => ?_⟩
  have served := served_of_unwatched (balance.nested (P := fun _ => True) exec)
    (unwatched_balanced k) fun _ _ => admits_adjust_balanced k fun _ => rfl
  have called := Place.deliver_carries (unwatched_balanced k).quiescent (served id) pass v w trivial
  exact ⟨Place.deliver_ne_panic _ _ _ _, called.leads⟩

/-- Setting the value is accepted. -/
def World.Accepts (i : Fin n) (w : World n α) : Prop :=
  ∀ budget handle v, w.target? handle = some i →
    (((language n α).exec (budget + 1) (.act handle (.set v))).perform w).1 ≠ .error .panic ∧
      ∃ later, (((language n α).exec (budget + 1) (.act handle (.set v))).perform w).2.history i =
        w.history i ++ .committed (w[i].version + 1) v :: later

theorem World.GivesBack.accepts (back : w.GivesBack budget) (free : w[i].isBorrowed = false)
    (s : Step α) : (((language n α).exec budget s).perform w).2.Accepts i := by
  intro budget' handle v reaches
  refine exec_set reaches ?_
  rw [isBorrowed, back.step s i]
  exact free

/-- Where no value is borrowed, setting one does not panic, whatever the handle reaches. -/
theorem exec_set_ne_panic (free : ∀ j : Fin n, w[j].isBorrowed = false) (v : α) :
    (((language n α).exec budget (.act handle (.set v))).perform w).1 ≠ .error .panic := by
  cases budget with
  | zero => exact nofun
  | succ budget =>
    cases reached : w.target? handle with
    | some j => exact (exec_set reached (free j)).1
    | none =>
      have missing := perform_withHandle_missing (w := w.record (.began (.act handle (.set v))))
        reached fun j => .observable <$> Action.perform (place j)
          ((language n α).nested ((language n α).exec budget)) (fun _ => pure ()) (World.enrol j)
            (.set v)
      simp only [Language.exec, Act.perform_bind]
      exact fun panicked => by cases (congrArg Prod.fst missing).symm.trans panicked

/-- Whatever a run has done, setting a value afterwards succeeds. -/
theorem run_set (values : Vector α n) (steps : List (Step α)) (handle : Nat) (v : α) :
    ∃ answer events,
      (run values (steps ++ [.act handle (.set v)])).1.getLast? = some ⟨.ok answer, events⟩ := by
  have whole := (run_affords values (steps ++ [.act handle (.set v)])).1
  rw [run, Language.run_append] at whole ⊢
  generalize stepsWeight (steps ++ [.act handle (.set v)]) = budget at whole ⊢
  have free := run_level budget values steps
  generalize ((language n α).run budget steps (World.start values)).2 = w at whole free ⊢
  -- The outcome of the last step is neither of the two interruptions.
  have last : ((language n α).run budget [.act handle (.set v)] w).1 =
      [((language n α).runStep budget (.act handle (.set v)) w).1] := rfl
  have calm : ((language n α).runStep budget (.act handle (.set v)) w).1.ending ≠ .error .panic :=
    exec_set_ne_panic free v
  rw [last] at whole ⊢
  have whole := whole _ (List.mem_append_right _ (List.mem_singleton_self _))
  rw [List.getLast?_concat]
  generalize ((language n α).runStep budget (.act handle (.set v)) w).1 = outcome at calm whole ⊢
  rcases outcome with ⟨(_ | _) | answer, events⟩
  · exact absurd rfl calm
  · cases whole
  · exact ⟨answer, events, rfl⟩

/-- In every world, reading works whether the value is held or not, and while the steps inside a
    reading run, at whatever depth, the value is held and nothing happens to the observable but that
    subscribers are silenced.  While the value is held, every change of it and every subscription
    panics, through whatever handle, and ending a subscription for the first time silences the
    subscriber and panics.  A change whose steps inside or whose computation panic does nothing but
    what these steps have done.  However a step or a call of a callback ends, nothing stays
    borrowed, so that setting a value that was free before is accepted afterwards; and at the end of
    every run setting a value succeeds. -/
theorem panics_leave_whole (budget : Nat) (i : Fin n) :
    (∀ w : World n α, w.Reads budget i ∧ w.Abandons budget i ∧ w.GivesBack budget ∧
      (w[i].isBorrowed = true → w.Refuses budget i) ∧
      (w[i].isBorrowed = false → ∀ s,
        (((language n α).exec budget s).perform w).2.Accepts i)) ∧
    ∀ (values : Vector α n) (steps : List (Step α)) (handle : Nat) (v : α), ∃ answer events,
      (run values (steps ++ [.act handle (.set v)])).1.getLast? = some ⟨.ok answer, events⟩ := by
  refine ⟨fun w => ⟨w.reads budget i, w.abandons budget i, w.givesBack budget,
    fun held => World.refuses budget held, fun free => ?_⟩, run_set⟩
  exact (w.givesBack budget).accepts free

/-- A subscriber of the second observable changes the first one while reading it.  The pass of the
    second one catches the panic, and the first one can be changed afterwards. -/
example :
    let rule : Rule (Step String) String := ⟨(· == "b"), 1, [.act 0 (.borrow [.act 0 (.set "c")])]⟩
    let w := (run #v["a", "b"] [.act 1 (.subscribe "second" [rule]), .act 0 (.set "d")]).2
    w.cells[0].value = "d" ∧ w.cells[0].version = 1 ∧ w.cells[0].borrows = 0 := by
  decide +kernel

end LiveState.Observable.Scenario
