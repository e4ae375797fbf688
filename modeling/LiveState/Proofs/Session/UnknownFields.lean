import LiveState.Proofs.Session.Reloading

/-! # Unknown fields

A field that the program does not know is carried along: after it has been set, a fresh load finds
it, and the limit as it was.  This is not so for a field that has the name of the limit.  Both are
written, and the one that was meant to be unknown is read as the limit.
-/

namespace LiveState

open Json

variable {u : UserSettings} {k : String} {x : Json}

/-- The settings with an unknown field set. -/
def UserSettings.put (k : String) (x : Json) (u : UserSettings) : UserSettings :=
  { u with extra := u.extra.insert k x }

/-- Settings that are legible but perhaps for what stands under one name. -/
structure UserSettings.LegibleBut (k : String) (u : UserSettings) : Prop where
  sorted : Fields.Sorted u.extra
  /-- The limit stands for itself. -/
  unlimited : u.extra.get? limitField = none
  others : ∀ f ∈ u.extra, f.1 ≠ k → Formed 126 f.2 ∧ f.2.Legible

theorem UserSettings.Legible.but (h : u.Legible) : u.LegibleBut k :=
  ⟨h.sorted, h.unlimited, fun f hf _ => h.legible f hf⟩

theorem UserSettings.LegibleBut.put (h : u.LegibleBut k) (unknown : k ≠ limitField)
    (formed : Formed 126 x) (legible : x.Legible) : (u.put k x).Legible where
  sorted := h.sorted.insert k x
  unlimited := (Fields.get?_insert_of_ne (Ne.symm unknown)).trans h.unlimited
  legible f hf := by
    rcases Fields.mem_insert hf with rfl | there
    · exact ⟨formed, legible⟩
    by_cases here : f.1 = k
    · -- Whatever stood under the name is not there any more.
      have found : (u.extra.insert k x).get? f.1 = some f.2 := (h.sorted.insert k x).get?_of_mem hf
      rw [here, Fields.get?_insert_self, Option.some.injEq] at found
      exact found ▸ ⟨formed, legible⟩
    · exact h.others f there here

/-- Settings go on lasting when an unknown field is set. -/
theorem UserSettings.Lasting.put (h : u.Lasting) (unknown : k ≠ limitField)
    (formed : Formed 126 x) (whole : Whole x) : (u.put k x).Lasting where
  sorted := h.sorted.insert k x
  unlimited := (Fields.get?_insert_of_ne (Ne.symm unknown)).trans h.unlimited
  formed f hf := by
    rcases Fields.mem_insert hf with rfl | hf
    · exact formed
    · exact h.formed f hf
  whole f hf := by
    rcases Fields.mem_insert hf with rfl | hf
    · exact whole
    · exact h.whole f hf

namespace Session

/-- An unknown field survives a fresh load, and leaves the limit alone.  Whatever else is in the
    record, if it can be read from its text: after a field that has not the name of the limit has
    been set, and the record has been written with it, a fresh load does not fall back, gives the
    limit that is in memory, and finds the field.  Other fields may come back with other numbers in
    them; if all numbers are whole, the load gives what is in memory and leaves the bytes alone. -/
theorem unknown_field_survives_reload {w w' : World UserSettings} {name storage key : String}
    {i : Nat} {medium : Medium} {budget : Nat} {k : String} {x : Json}
    {o : Language.Outcome (Step UserSettings) (Reply UserSettings) (Incident UserSettings)}
    (tended : w.Tended name storage key i medium) (legible : (w.valueOf i).LegibleBut k)
    (unknown : k ≠ UserSettings.limitField) (formed : Formed 126 x) (whole : Whole x)
    (ran : (language UserSettings).runStep budget
      (.settings name (.value (.update (UserSettings.put k x) false []))) w = (o, w'))
    (once : (stored i o.events).length = 1)
    (accepted : ∀ a ∈ attempts i o.events, a.succeeded = true)
    (reads : ∃ stored, (w'.media.read medium key).answer? = some (.ok stored)) :
    ∃ u : UserSettings, w'.LoadsAs medium key .initial u ∧
      u.resultLimit = (w.valueOf i).resultLimit ∧ u.extra.get? k = some x ∧
      ((w.valueOf i).Lasting → w'.ReloadsAs medium key .initial u) := by
  let v := (w.valueOf i).put k x
  have holds : w'.media.holding medium key = some (.bytes v.bytes) :=
    holding_of_sets v.encode_eq tended (.update _ _) ran once accepted
  have decoded : Settings.decode .initial v.bytes = .ok v.reread :=
    UserSettings.decode_legible (legible.put unknown formed whole.legible) 21
  refine ⟨v.reread, loadsAs_of_holding holds reads v.isEmpty_bytes decoded, rfl, ?_, fun lasting => ?_⟩
  · have found : v.extra.get? k = some x := Fields.get?_insert_self
    rw [UserSettings.get?_reread, found, Option.map_some, whole.reread_eq]
  · rw [(lasting.put unknown formed whole).reread_eq] at decoded ⊢
    exact reloadsAs_of_holding holds reads v.encode_eq v.isEmpty_bytes decoded

/-- A text is set under a name that nobody knows, in a record that was never stored. -/
theorem unknown_field_survives_reload_text :
    let opened := ((language UserSettings).run 1
      [.medium "m" (.openAs (.memory []))] (World.start (.empty []))).2
    let loaded := ((language UserSettings).runStep 1 (.load "r" "m" "k" .initial) opened).2
    let updated := (language UserSettings).runStep 1
      (.settings "r" (.value (.update (UserSettings.put "theme" (.str "dark")) false []))) loaded
    ∃ u : UserSettings, updated.2.ReloadsAs (.region 0) "k" .initial u ∧
      u.resultLimit = (loaded.valueOf 0).resultLimit ∧ u.extra.get? "theme" = some (.str "dark") := by
  intro opened loaded updated
  have loads : (language UserSettings).runStep 1 (.load "r" "m" "k" .initial) opened =
      (⟨.ok (.loaded .initial),
        ((language UserSettings).runStep 1 (.load "r" "m" "k" .initial) opened).1.events⟩,
        loaded) := rfl
  have tended : loaded.Tended "r" "m" "k" 0 (.region 0) :=
    .run (.empty []) 1 _ [] loads rfl rfl nofun
  have once : (stored 0 updated.1.events).length = 1 := by
    simp only [updated, loaded, opened]
    decide +kernel
  have accepted : ∀ a ∈ attempts 0 updated.1.events, a.succeeded = true := by
    simp only [updated, loaded, opened]
    decide +kernel
  obtain ⟨u, -, limit, found, reloads⟩ := unknown_field_survives_reload tended
    UserSettings.lasting_initial.legible.but (by decide) (.str _) (.str _) (Prod.eta updated).symm
    once accepted (Media.read_region _ _ _)
  exact ⟨u, reloads UserSettings.lasting_initial, limit, found⟩

/-- A field with the name of the limit is written beside the limit, and the next load takes it for
    the limit: it is no number, so that everything is given up for the default. -/
theorem limit_field_falls_back :
    let opened := ((language UserSettings).run 1
      [.medium "m" (.openAs (.memory []))] (World.start (.empty []))).2
    let loaded := ((language UserSettings).runStep 1 (.load "r" "m" "k" ⟨50, []⟩) opened).2
    let updated := (language UserSettings).runStep 1 (.settings "r" (.value
      (.update (UserSettings.put UserSettings.limitField (.str "many")) false []))) loaded
    let again := (language UserSettings).runStep 1 (.load "s" "m" "k" .initial) updated.2
    (updated.2.valueOf 0).resultLimit = 50 ∧
      (attempts 0 updated.1.events).map (·.succeeded) = [true] ∧
      (fallbacks again.1.events).length = 1 ∧ (again.2.valueOf 1).resultLimit = 21 := by
  decide +kernel

end Session

end LiveState
