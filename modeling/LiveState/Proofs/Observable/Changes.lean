import LiveState.Proofs.Observable.Chain

/-! # Changes in runs

Whatever a scenario does, the changes of its observables form a chain, and whoever looks at an
observable sees the latest one.
-/

namespace LiveState.Observable.Scenario

open History

variable {n : Nat} {α : Type} {values : Vector α n}

/-- The steps of a run are deeds, one after another, from `past` to the last journal. -/
inductive Deeds (values : Vector α n) : List (Line n α) → List (Step α) →
    List (Language.Outcome (Step α) (Reply α) (Fin n × Occurrence α)) → List (Line n α) → Prop
  | nil {past : List (Line n α)} : Deeds values past [] [] past
  | cons {past last : List (Line n α)} {s : Step α} {steps : List (Step α)}
      {o : Language.Outcome (Step α) (Reply α) (Fin n × Occurrence α)}
      {outcomes : List (Language.Outcome (Step α) (Reply α) (Fin n × Occurrence α))} :
      Deed values past s o.ending.toOption o.events →
      Deeds values (past ++ o.events) steps outcomes last →
      Deeds values past (s :: steps) (o :: outcomes) last

/-! ## The value after a change -/

theorem valueAfter_of_still (i : Fin n) {past lines : List (Line n α)}
    (still : (historyOf i lines).stored = []) :
    valueAfter values i (past ++ lines) = valueAfter values i past := by
  have same : (historyOf i (past ++ lines)).stored = (historyOf i past).stored := by
    rw [historyOf, List.filterMap_append, stored_append, ← historyOf, ← historyOf, still,
      List.append_nil]
  rw [valueAfter, History.current, same]
  rfl

theorem valueAfter_change (i : Fin n) (past before after : List (Line n α)) (v : α) :
    valueAfter values i (before ++ .change i past v :: after) =
      (historyOf i after).stored.getLastD v := by
  have split : (historyOf i (before ++ .change i past v :: after)).stored =
      (historyOf i before).stored ++ v :: (historyOf i after).stored := by
    simp [historyOf, Line.change, occurrence?, stored, stored?]
  rw [valueAfter, History.current, split]
  rcases (historyOf i after).stored with _ | ⟨x, rest⟩
  · simp
  · simp [List.getLast?_cons]

theorem start_current (values : Vector α n) : (World.start values).Current values where
  value i := by rw [getElem_start]; rfl
  version i := by rw [getElem_start]; rfl

variable [Text.Describe α]

/-! ## Looking at an observable -/

/-- Through every handle that reaches it, an observable answers with the value of its latest change
    and with the number of its changes. -/
def World.Answers (values : Vector α n) (w : World n α) : Prop :=
  ∀ (budget handle : Nat) (i : Fin n), w.target? handle = some i →
    (((language n α).exec (budget + 1) (.act handle .get)).perform w).1 =
        .ok (.observable (.value ((w.history i).current (values.get i)))) ∧
      (((language n α).exec (budget + 1) (.act handle .version)).perform w).1 =
        .ok (.observable (.version (w.history i).stored.length))

theorem World.Current.answers {w : World n α} (h : w.Current values) : w.Answers values := by
  intro budget handle i reaches
  rw [perform_exec_act reaches, perform_exec_act reaches, ← h.value i, ← h.version i]
  exact ⟨rfl, rfl⟩

/-! ## Runs -/

theorem run_deeds {P : World n α → Prop} (hP : ∀ w, w.Current values → P w) (budget : Nat)
    (steps : List (Step α)) {w : World n α} (hw : w.Current values) :
    ((language n α).guarded P).run budget steps w = (language n α).run budget steps w ∧
      ((language n α).run budget steps w).2.Current values ∧
      ((∀ o ∈ ((language n α).run budget steps w).1, Act.isExhausted o.ending = false) →
        Deeds values w.journal.toList steps ((language n α).run budget steps w).1
          ((language n α).run budget steps w).2.journal.toList) := by
  induction steps generalizing w with
  | nil => exact ⟨rfl, hw, fun _ => .nil⟩
  | cons s rest ih =>
    obtain ⟨same, sound, ends⟩ := exec_done hP budget s hw
    obtain ⟨rests, sound', deeds⟩ := ih sound
    refine ⟨?_, sound', fun whole => ?_⟩
    · simp only [Language.run, Language.runStep_eq, same]
      exact congrArg (fun r => (_ :: r.1, r.2)) rests
    · obtain ⟨lines, grown, deed⟩ := ends (whole _ List.mem_cons_self)
      have cut : (((language n α).journal (((language n α).exec budget s).perform w).2).extract
          ((language n α).journal w).size).toList = lines := by
        show ((World.journal _).extract w.journal.size).toList = lines
        have size := congrArg List.length grown
        rw [List.length_append, Array.length_toList, Array.length_toList] at size
        rw [Array.toList_extract, grown]
        simp [List.extract, size]
      have later := deeds fun o ho => whole o (List.mem_cons_of_mem _ ho)
      rw [grown] at later
      simp only [Language.run, Language.runStep_eq, cut]
      exact .cons deed later

/-- A step that changes the value makes one change of its own if it returns, wherever it is run. -/
theorem exec_changes {budget handle : Nat} {i : Fin n} {action : Action (Step α) α} {f : α → α}
    {w w' : World n α} {r : Reply α} (reaches : w.target? handle = some i)
    (effect : action.effect? = some f) (hw : w.Current values)
    (ran : ((language n α).exec (budget + 1) (.act handle action)).perform w = (.ok r, w')) :
    r = .observable .done ∧
      ∃ before after, w'.journal.toList = w.journal.toList ++ .began (.act handle action) ::
          (before ++ Line.change i (w.journal.toList ++ [.began (.act handle action)] ++ before)
            (f w[i].value) :: after) ∧
        ((historyOf i before).stored = [] →
          valueAfter values i (w.journal.toList ++ [.began (.act handle action)] ++ before) =
            w[i].value) ∧
        w'[i].value = (historyOf i after).stored.getLastD (f w[i].value) := by
  -- The steps set off are deeds with the smaller budget, and so the action makes its one change.
  have hn := nested_chaining (P := fun _ => True) fun s (u : World n α) (hu : u.Current values) =>
    exec_done (fun _ _ => trivial) budget s hu
  have began : (w.record (.began (.act handle action))).Current values :=
    hw.record (.of_ne_happened nofun)
  obtain ⟨m, m', same, -, changes⟩ := perform_changes hn effect
  have change : Changes values i (f w[i].value) (w.record (.began (.act handle action))) m
    m' := changes _ began
  obtain ⟨-, sound, ends⟩ := change
  rw [perform_exec_act reaches, same, Functor.map_map, Act.perform_map] at ran
  -- It may have been cut short or panicked, but then the step would not have returned.
  rcases done : m.perform (w.record (.began (.act handle action))) with ⟨e | x, u⟩ <;>
    rw [done] at ran sound ends <;> cases ran
  obtain ⟨lines, grown, ⟨-, before, after, rfl, -, -⟩ | ⟨failed, -⟩⟩ := ends rfl
  · rw [World.journal_record] at grown
    refine ⟨rfl, before, after, by simpa using grown, fun still => ?_, ?_⟩
    · rw [valueAfter_of_still i still, ← World.journal_record]
      exact (began.value i).symm
    · rw [sound.value i]
      show valueAfter values i u.journal.toList = _
      rw [grown, ← List.append_assoc]
      exact valueAfter_change i _ _ _ _
  · cases failed

/-- The changes of the observables form one chain, whatever callbacks and steps inside others do and
    wherever they panic.  The steps of a run are deeds, so that each step that changes the value
    and returns makes one change of its own, each change is the own one of such a step, and it
    applies its function to the value that was current when it began.  Changes are numbered in the
    order in which they are made; whenever a step begins, at whatever depth, every observable is
    current, and answers so.  Setting a value that nobody holds does not panic.  Once a step that
    changes the value has returned, the value is that of the last change made during its pass, and
    its own one if there was none; and the value to which it has applied its function is the one
    right before its own change, if the steps inside have not changed it. -/
theorem changes_form_chain (values : Vector α n) (steps : List (Step α)) :
    Deeds values [] steps (run values steps).1 (run values steps).2.journal.toList ∧
    (∀ (i : Fin n) (pre post : History α) (number : Nat) (v : α),
      (run values steps).2.history i = pre ++ .committed number v :: post →
        number = pre.stored.length + 1) ∧
    (language n α).Throughout (fun w => w.Current values ∧ w.Answers values)
      (stepsWeight steps) steps (World.start values) ∧
    (∀ (budget handle : Nat) (i : Fin n) (w : World n α) (v : α),
      w.target? handle = some i → w[i].isBorrowed = false →
        (((language n α).exec (budget + 1) (.act handle (.set v))).perform w).1
          ≠ .error .panic) ∧
    ∀ (budget handle : Nat) (i : Fin n) (action : Action (Step α) α) (f : α → α)
      (w w' : World n α) (r : Reply α),
      w.target? handle = some i → action.effect? = some f → w.Current values →
        ((language n α).exec (budget + 1) (.act handle action)).perform w = (.ok r, w') →
          r = .observable .done ∧
            ∃ before after, w'.journal.toList = w.journal.toList ++ .began (.act handle action) ::
                (before ++ Line.change i (w.journal.toList ++ [.began (.act handle action)] ++ before)
                  (f w[i].value) :: after) ∧
              ((historyOf i before).stored = [] →
                valueAfter values i
                  (w.journal.toList ++ [.began (.act handle action)] ++ before) =
                    w[i].value) ∧
              w'[i].value = (historyOf i after).stored.getLastD (f w[i].value) := by
  obtain ⟨same, sound, deeds⟩ := run_deeds
    (P := fun w : World n α => w.Current values ∧ w.Answers values)
    (fun _ current => ⟨current, current.answers⟩) (stepsWeight steps) steps
    (start_current values)
  refine ⟨deeds (run_affords values steps).1, fun i pre post number v split => ?_,
    ⟨same, sound, sound.answers⟩, fun budget handle i w v reaches free => (exec_set reaches free).1,
    fun budget handle i action f w w' r => exec_changes⟩
  obtain ⟨-, episode⟩ := run_chronicle values steps i
  exact (episode.segment.pass pre number v post split).1

end LiveState.Observable.Scenario
