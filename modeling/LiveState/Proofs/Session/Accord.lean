import LiveState.Proofs.Session.Memory

/-! # Sessions in accord

Two sessions that have the same in memory do the same steps in memory.  What differs is where the
records are kept, and what becomes of what is written there.
-/

namespace LiveState

open Act

/-! ## Commands -/

namespace Command

variable {W σ : Type} {R : W → W → Prop} {allowed : σ → Prop} {panels : Registry.Site W σ Panel}
  {settings : Settings.Site W σ UserSettings} {store : Settings.Store W}
  {nested nested' : Nested W σ} (symm : ∀ w w', R w w' → R w' w)
  (hn : Nested.Accord R allowed nested nested')

include symm hn

theorem mount_accord (h : panels.Common R allowed) (names : List String) :
    Accord R (mount panels nested names) (mount panels nested' names) := by
  induction names with
  | nil => exact fun w w' hw => .pure hw _
  | cons name names ih =>
    simp only [mount]
    split
    · exact (h.addKind hn symm _).bind fun _ => ih
    · exact (h.jot _).bind fun _ => ih.bind fun _ w w' hw => .pure hw _

/-- A command is executed alike, whatever the medium of the settings is. -/
theorem execute_accord (h : panels.Common R allowed) (hs : settings.Common R allowed)
    (hidden : settings.store.Hidden R) (hidden' : store.Hidden R) (command : Command) :
    Accord R (command.execute panels settings nested)
      (command.execute panels { settings with store := store } nested') := by
  have calls := hs.deliver symm hn hidden hidden'
  have shown : Accord R (showSettings settings) (showSettings { settings with store := store }) :=
    fun w w' hw => (hs.view hw _).bind fun _ u u' _ _ hu => .pure hu _
  cases command with
  | settings => exact shown
  | setLimit limit =>
    have nothing : Accord R (pure () : Act W Unit) (pure ()) := fun w w' hw => .pure hw _
    exact (hs.value.update calls _ false nothing).bind fun _ w w' hw => .pure hw _
  | reset => exact (hs.reset symm hn hidden hidden').bind fun _ => shown
  | panels names =>
    refine (mount_accord symm hn h names).bind fun unknown w w' hw => h.look hw ?_
    split
    · exact .pure hw _
    · exact h.look hw (.pure hw _)

end Command

namespace Session

variable {ρ : Type} {nested nested' : Nested (World ρ) (Step ρ)}

/-! ## Media -/

theorem aside_respond {α : Type} (r : Response α) :
    Aside Alike (respond r : Act (World ρ) (Except StorageError α)) := by
  cases r with
  | answered a => exact aside_pure _
  | failed e => exact aside_pure _
  | panicked => exact aside_panic

theorem aside_writeMedium (medium : Medium) (key : String) (bytes : ByteArray) :
    Aside Alike (writeMedium medium key bytes : Act (World ρ) (Except StorageError Unit)) := by
  refine Aside.look fun (response, media) => Aside.bind ?_ fun _ => aside_respond response
  exact (unseen_of_memory (f := fun w => { w with media := media }) fun w => rfl).aside

/-- What a medium does with what is written to it is not seen in memory. -/
theorem Access.hidden (a : Access) : (a.store (ρ := ρ)).Hidden Alike := by
  intro key bytes
  obtain ⟨medium, _ | name⟩ := a
  · exact aside_writeMedium medium key bytes
  · exact (unseen_record rfl).aside.bind fun _ => aside_writeMedium medium key bytes

/-- Two media that answer alike are read alike, whether or not this is shown. -/
theorem store_read_accord {w w' : World ρ} (h : Alike w w') {access access' : Access} {key : String}
    (reads : w.media.read access.medium key = w'.media.read access'.medium key) :
    AccordFrom Alike w w' (access.store.read key) (access'.store.read key) := by
  -- The note about it is not seen, so that the answers are given in worlds that are alike.
  have noted (a : Access) (u : World ρ) : ∃ v, (a.store.read key).perform u =
      (respond (u.media.read a.medium key)).perform v ∧ v.memory = u.memory := by
    obtain ⟨medium, _ | name⟩ := a
    · exact ⟨u, rfl, rfl⟩
    · exact ⟨_, rfl, by simp [World.note, memory_record, isRemembered]⟩
  obtain ⟨v, ran, same⟩ := noted access w
  obtain ⟨v', ran', same'⟩ := noted access' w'
  have alike : Alike v v' := h.change id same same' h.tame
  have answer : AccordFrom Alike v v'
      (respond (w.media.read access.medium key) : Act (World ρ) _)
      (respond (w'.media.read access'.medium key)) := by
    rw [← reads]
    cases w.media.read access.medium key with
    | answered a => exact .pure alike _
    | failed e => exact .pure alike _
    | panicked => exact .panic alike
  exact answer.of_perform ran ran'

/-! ## Steps on media and files -/

theorem aside_withMedium {f : Medium → Act (World ρ) (Reply ρ)}
    (h : ∀ medium, Aside Alike (f medium)) (name : String) : Aside Alike (withMedium name f) := by
  refine Aside.look fun found => ?_
  cases found with
  | none => exact aside_pure _
  | some medium => exact h medium

theorem aside_modify {f : World ρ → World ρ} (same : ∀ w, (f w).memory = w.memory) :
    Aside Alike (modify f : Act (World ρ) Unit) :=
  (unseen_of_memory same).aside

theorem aside_readMedium (medium : Medium) (key : String) :
    Aside Alike (readMedium medium key : Act (World ρ) (Except StorageError (Option ByteArray))) :=
  Aside.look fun _ => aside_respond _

theorem aside_openMedium (opening : Opening) :
    Aside Alike (openMedium opening : Act (World ρ) (Option (Except StorageError Medium))) := by
  cases opening with
  | memory | privateDatabase | switched | database =>
    exact Aside.look fun (_, media) => Aside.bind
      (aside_modify (f := fun w => { w with media := media }) fun _ => rfl) fun _ => aside_pure _
  | share name => exact Aside.look fun _ => aside_pure _
  | disabled => exact aside_pure _

/-- Nothing that is done to a medium is seen in memory. -/
theorem aside_mediumStep (step : MediumStep) (name : String) :
    Aside Alike (step.perform name : Act (World ρ) (Reply ρ)) := by
  cases step with
  | openAs opening =>
    refine (aside_openMedium opening).bind fun result => ?_
    rcases result with _ | _ | medium
    · exact aside_pure _
    · exact aside_pure _
    · exact Aside.bind (aside_modify fun _ => rfl) fun _ => aside_pure _
  | close => exact Aside.bind (aside_modify fun _ => rfl) fun _ => aside_pure _
  | turn reads writes =>
    refine aside_withMedium (fun medium => ?_) name
    exact (aside_modify (f := fun w => { w with media := w.media.turn medium reads writes })
      fun _ => rfl).bind fun _ => aside_pure _
  | read key =>
    refine aside_withMedium (fun medium => (aside_readMedium medium key).bind fun r => ?_) name
    rcases r with e | bytes
    · exact aside_pure _
    · exact aside_pure _
  | write key bytes =>
    refine aside_withMedium (fun medium => ?_) name
    refine (aside_writeMedium medium key bytes).bind fun r => ?_
    rcases r with e | _
    · exact aside_pure _
    · exact aside_pure _

theorem aside_fileStep (step : FileStep) :
    Aside Alike (step.perform : Act (World ρ) (Reply ρ)) := by
  have set (files : FileTree) : Aside Alike (setFiles files : Act (World ρ) Unit) :=
    aside_modify fun _ => rfl
  cases step with
  | makeDirectories path => exact Aside.look fun _ => (set _).bind fun _ => aside_pure _
  | write path content =>
    refine Aside.look fun written => ?_
    cases written with
    | some files => exact (set files).bind fun _ => aside_pure _
    | none => exact aside_pure _
  | status path => exact Aside.map (fun _ _ h => ⟨rfl, h⟩) _
  | putText path key text => exact Aside.look fun _ => (set _).bind fun _ => aside_pure _
  | makeForeign path => exact Aside.look fun _ => (set _).bind fun _ => aside_pure _

/-! ## Steps in memory -/

variable {w w' : World ρ}

theorem Alike.enrol (h : Alike w w') (source : Source) (name : String) (id : Nat) :
    Alike (w.enrol source name id) (w'.enrol source name id) :=
  h.change (fun m => { m with subscriptions := m.subscriptions.insert name (source, id) }) rfl rfl
    ⟨h.tame.records, h.tame.contexts⟩

theorem withContext_accord {f f' : Nat → Act (World ρ) (Reply ρ)}
    (k : ∀ i, Accord Alike (f i) (f' i)) (name : String) :
    Accord Alike (withContext name f) (withContext name f') := by
  refine fun w w' h => AccordFrom.look (congrArg (·.contextNames.get? name) h.memory) ?_
  cases w.contextNames.get? name with
  | none => exact .pure h _
  | some i => exact k i w w' h

variable [Inhabited ρ]

theorem askSubscription_accord (name : String) (request : Subscription.Request) :
    Accord Alike (askSubscription (ρ := ρ) name request) (askSubscription name request) := by
  intro w w' h
  have forget (u u' : World ρ) (h : Alike u u') :
      Alike { u with subscriptions := u.subscriptions.erase name }
        { u' with subscriptions := u'.subscriptions.erase name } :=
    h.change (fun m => { m with subscriptions := m.subscriptions.erase name }) rfl rfl
      ⟨h.tame.records, h.tame.contexts⟩
  refine AccordFrom.look (congrArg (·.subscriptions.get? name) h.memory) ?_
  rcases w.subscriptions.get? name with _ | ⟨i | i | i, id⟩
  · exact .pure h _
  · exact Subscription.Request.perform_accord (recordSite_common _ i).value forget id request w w' h
  · exact Subscription.Request.perform_accord (contextSettingsSite_common _ i).value forget id
      request w w' h
  · exact Subscription.Request.perform_accord (contextPanelsSite_common i).resolved forget id
      request w w' h

variable [Settings.Record ρ] [Text.Describe ρ]

/-- A step in memory does not depend on where anything is kept. -/
theorem perform_accord (hn : Nested.Accord Alike InMemory nested nested') {s : Step ρ}
    (hs : InMemory s) : Accord Alike (perform nested s) (perform nested' s) := by
  have symm (w w' : World ρ) : Alike w w' → Alike w' w := Alike.symm
  cases hs with
  | subscription name request =>
    exact fun w w' h => (askSubscription_accord name request w w' h).map _
  | panic => exact fun w w' h => .panic h
  | settings name action inside =>
    refine fun w w' h => AccordFrom.look (congrArg (·.recordNames.get? name) h.memory) ?_
    cases w.recordNames.get? name with
    | none => exact .pure h _
    | some i =>
      -- The record may be kept elsewhere in the other world.
      have done := (recordSite_common (w.recordAccess i) i).perform symm hn (Access.hidden _)
        (Access.hidden (w'.recordAccess i))
        (fun name id u u' hu => Alike.enrol hu (.settings i) name id) action inside w w' h
      exact .look_apart (done.map Reply.settings)
  | drop name =>
    have freed (w w' : World ρ) (h : Alike w w') :
        Alike
          (World.settle { w with
            recordNames := w.recordNames.erase name
            contextNames := w.contextNames.erase name })
          (World.settle { w' with
            recordNames := w'.recordNames.erase name
            contextNames := w'.contextNames.erase name }) :=
      h.change (fun m => { m with
        recordNames := m.recordNames.erase name
        contextNames := m.contextNames.erase name }) rfl rfl ⟨h.tame.records, h.tame.contexts⟩
    exact (accord_modify freed).bind fun _ w w' h => .pure h _
  | contextSettings name action inside =>
    refine withContext_accord (fun i w w' h => ?_) name
    have done := (contextSettingsSite_common (w.contextAccess i) i).perform symm hn
      (Access.hidden _) (Access.hidden (w'.contextAccess i))
      (fun name id u u' hu => Alike.enrol hu (.contextSettings i) name id) action inside w w' h
    exact .look_apart (done.map Reply.contextSettings)
  | contextPanels name action inside =>
    refine withContext_accord (fun i w w' h => ?_) name
    exact ((contextPanelsSite_common i).perform hn symm
      (fun name id u u' hu => Alike.enrol hu (.contextPanels i) name id) action inside w w' h).map _
  | describe name pretty =>
    refine withContext_accord (fun i w w' h => ?_) name
    have same : Text.describe (w.contexts.getD i .blank) =
        Text.describe (w'.contexts.getD i .blank) :=
      congrArg (fun c : ContextMemory ρ => Text.Description.record "AppContext"
        [("panels", Text.describe c.panels), ("settings", Text.describe c.settings)])
        (h.context i).1
    exact .look same (.pure h _)
  | execute name command room =>
    rw [perform_execute, perform_execute]
    refine withContext_accord (fun i w w' h => .look_apart ?_) name
    have done := Command.execute_accord symm hn (contextPanelsSite_common i)
      (contextSettingsSite_common (w.contextAccess i) i) (Access.hidden _)
      (Access.hidden (w'.contextAccess i)) command w w' h
    exact done.bind fun output u u' _ _ hu => .pure hu _

end Session

end LiveState
