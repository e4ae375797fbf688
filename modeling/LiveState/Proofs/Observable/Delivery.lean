import LiveState.Proofs.Observable.Passes
import LiveState.Proofs.Observable.Voices

/-! # Delivery

Whenever an observable is changed in a scenario, each subscriber that is listed at that moment has
exactly one turn in the pass of the change.
-/

namespace LiveState.Observable.Scenario

open Course

variable {n : Nat} {α : Type}

/-! ## Journals grow -/

/-- The course on which nothing is asked but that the journal grows. -/
def writing (n : Nat) (α : Type) : Course (World n α) := growing fun w => w.journal.toList

theorem admits_record (e : Event (Step α) (Reply α) (Fin n × Occurrence α)) :
    (writing n α).Admits (World.record e) :=
  fun w _ => ⟨trivial, by simp [writing, growing, World.record]⟩

theorem admits_unwritten {f : World n α → World n α} (h : ∀ w, (f w).journal = w.journal) :
    (writing n α).Admits f :=
  fun w _ => ⟨trivial, by simp [writing, growing, h]⟩

theorem unwatched_writing (i : Fin n) : (place i).Unwatched (writing n α) where
  store _ := admits_unwritten fun _ => rfl
  silence _ := admits_unwritten fun _ => rfl
  delist _ := admits_unwritten fun _ => rfl
  note _ := admits_record _

variable [Text.Describe α]

theorem heeds_writing : (language n α).Heeds (writing n α) fun _ => True :=
  heeds_of_unwatched (fun _ _ => List.prefix_refl _)
    ⟨fun _ => admits_unwritten fun _ => rfl, fun _ => admits_unwritten fun _ => rfl⟩
    admits_record unwatched_writing (fun _ _ _ => admits_unwritten fun _ => rfl)
    (fun _ _ => admits_unwritten fun _ => rfl) fun _ _ _ =>
      Place.borrowing_carries (admits_unwritten fun _ => rfl) (admits_unwritten fun _ => rfl)

/-! ## Changes -/

theorem perform_exec_act {budget handle : Nat} {i : Fin n} {w : World n α}
    (reaches : w.target? handle = some i) (action : Action (Step α) α) :
    ((language n α).exec (budget + 1) (.act handle action)).perform w =
      (Reply.observable <$> action.perform (place i)
        ((language n α).nested ((language n α).exec budget)) (fun _ => pure ())
        (World.enrol i)).perform (w.record (.began (.act handle action))) := by
  have target : (w.record (.began (.act handle action))).target? handle = some i := reaches
  simp only [Language.exec, Act.perform_bind]
  simp only [language, perform, withHandle, Act.perform_modify, Act.perform_bind,
    Act.perform_view, target]

omit [Text.Describe α] in
theorem set_stores {i : Fin n} {call call' : Nat → Listener (Step α) α → α → Act (World n α) Unit}
    (served : (place i).Served (writing n α) call call') {w : World n α}
    (free : w[i].isBorrowed = false) (v : α) :
    (((place i).set call v).perform w).1 ≠ .error .panic ∧
      ∃ later, (((place i).set call v).perform w).2.history i =
        w.history i ++ .committed (w[i].version + 1) v :: later := by
  rw [(recorded i).perform_set_free free v]
  refine ⟨Place.announce_ne_panic _ _ _ _, ?_⟩
  have pass := Place.announce_carries (unwatched_writing i).quiescent (w[i].version + 1) v
    (fun id (_ : id ∈ w[i].listed) => served id) ((place i).committed v w) trivial
  -- The journal only grows during the pass, and so does the history.
  obtain ⟨later, grown⟩ : ((place i).committed v w).history i <+: World.history i _ :=
    pass.leads.filterMap _
  refine ⟨later, Eq.trans grown.symm ?_⟩
  rw [Place.committed, (recorded i).past_note, (recorded i).past_adjust]
  simp [place, getElem_cells]

/-- Setting a value that nobody holds stores it at once, and does not panic. -/
theorem exec_set {budget handle : Nat} {v : α} {i : Fin n} {w : World n α}
    (reaches : w.target? handle = some i) (free : w[i].isBorrowed = false) :
    (((language n α).exec (budget + 1) (.act handle (.set v))).perform w).1 ≠ .error .panic ∧
      ∃ later, (((language n α).exec (budget + 1) (.act handle (.set v))).perform w).2.history i =
        w.history i ++ .committed (w[i].version + 1) v :: later := by
  have heeds := heeds_writing (n := n) (α := α)
  have served := served_of_unwatched (heeds.nested (P := fun _ => True)
    (heeds.exec (fun _ _ => trivial) budget)) (unwatched_writing i)
      fun _ _ => admits_unwritten fun _ => rfl
  have began : (w.record (.began (.act handle (.set v)))).history i = w.history i := by
    simp [history_record, occurrence?]
  obtain ⟨calm, later, grown⟩ := set_stores served
    (w := w.record (.began (.act handle (.set v)))) free v
  rw [began] at grown
  rw [perform_exec_act reaches, Act.perform_map]
  simp only [Action.perform, Act.perform_bind]
  rcases ran : ((place i).set _ v).perform (w.record (.began (.act handle (.set v))))
    with ⟨e | _, u⟩
  all_goals rw [ran] at calm grown
  · exact ⟨by simpa [Except.map] using calm, later, grown⟩
  · exact ⟨by simp [Except.map], later, grown⟩

/-- Whenever an observable is changed in a scenario, at whatever depth, each subscriber listed at
    that moment has exactly one turn in the pass of the change, in the order of registration, and
    the pass follows at once: whoever has not been silenced by its turn is called with the value of
    this very change, and everything that its callback does comes before the next turn.  A call is
    the run of the subscriber's own script, which receives the value at once, and no script runs
    otherwise.  No step is cut short, and setting a value that nobody holds never panics. -/
theorem pass_gives_each_listed_one_turn (values : Vector α n) (steps : List (Step α))
    (i : Fin n) :
    (∀ (pre post : History α) (number : Nat) (v : α),
      (run values steps).2.history i = pre ++ .committed number v :: post →
        pre.listed.Pairwise (· < ·) ∧
        ((run values steps).2.history i).turns number = pre.listed ∧
        ∃ pass later, post = pass ++ later ∧
          Turns (values.get i) number v pre.listed (pre ++ [.committed number v]) pass) ∧
    (run values steps).2.Voiced i ∧
    (∀ o ∈ (run values steps).1, Act.isExhausted o.ending = false) ∧
    ∀ (budget handle : Nat) (w : World n α) (v : α),
      w.target? handle = some i → w[i].isBorrowed = false →
        (((language n α).exec (budget + 1) (.act handle (.set v))).perform w).1
          ≠ .error .panic ∧
        ∃ later,
          (((language n α).exec (budget + 1) (.act handle (.set v))).perform w).2.history i =
            w.history i ++ .committed (w[i].version + 1) v :: later := by
  obtain ⟨agrees, episode⟩ := run_chronicle values steps i
  refine ⟨fun pre post number v split => ?_, run_voiced values steps i,
    (run_affords values steps).1, fun budget handle w v reaches free => exec_set reaches free⟩
  obtain ⟨-, each, pass⟩ := episode.segment.pass pre number v post split
  refine ⟨?_, each, pass⟩
  -- Numbers are given in order, and the list keeps the order of registration.
  have ordered : ((run values steps).2.history i).registered.Pairwise (· < ·) := by
    rw [← agrees.nextId]
    exact List.pairwise_lt_range
  have before : pre.listed.Sublist ((run values steps).2.history i).registered := by
    rw [split, History.registered, List.filterMap_append]
    exact pre.listed_sublist.trans (List.sublist_append_left _ _)
  exact ordered.sublist before

end LiveState.Observable.Scenario
