import LiveState.Proofs.Session.Accord

/-! # Sessions under any weather

A session writes to media that it does not own.  Whenever it puts a line of its own into the
journal, because a step begins or one that was set off has ended, the media may be changed in any
way by somebody else, as the *weather* has it.  A step on a record writes no more than once by
itself, so that there is weather for any outcomes of the single writes.

Whatever the weather, it does not show in memory.
-/

namespace LiveState.Session

open Act

variable {ρ : Type} {w w' : World ρ}

theorem Alike.media (h : Alike w w') (m m' : Media) :
    Alike { w with media := m } { w' with media := m' } :=
  h.change id rfl rfl h.tame

/-! ## Loading -/

theorem Alike.pushContext (h : Alike w w') (access access' : Access) (v : UserSettings) :
    Alike
      { w with contexts := w.contexts.push ⟨.new .panels, ⟨.new settingsKey .initial v, access⟩⟩ }
      { w' with
        contexts := w'.contexts.push ⟨.new .panels, ⟨.new settingsKey .initial v, access'⟩⟩ } := by
  refine h.change (fun m => { m with
    contexts := m.contexts.push ⟨.new .panels, .new settingsKey .initial v⟩ }) ?_ ?_
    ⟨h.tame.records, fun i c found => ?_⟩
  · simp [World.memory, Context.memory]
  · simp [World.memory, Context.memory]
  · rw [Array.getElem?_push] at found
    split at found
    · cases found
      exact ⟨Observable.tame_new _, Registry.Catalog.within_panels _, Observable.tame_new _⟩
    · exact h.tame.contexts i c found

theorem Alike.pushRecord (h : Alike w w') (access access' : Access) (key : String)
    (default v : ρ) :
    Alike { w with records := w.records.push ⟨.new key default v, access⟩ }
      { w' with records := w'.records.push ⟨.new key default v, access'⟩ } := by
  refine h.change (fun m => { m with records := m.records.push (.new key default v) }) ?_ ?_
    ⟨fun i s found => ?_, h.tame.contexts⟩
  · simp [World.memory]
  · simp [World.memory]
  · rw [Array.getElem?_push] at found
    split at found
    · cases found
      exact Observable.tame_new v
    · exact h.tame.records i s found

variable {nested nested' : Nested (World ρ) (Step ρ)}

theorem makeContext_accord (hn : Nested.Accord Alike InMemory nested nested') (h : Alike w w')
    (access access' : Access)
    (reads : w.media.read access.medium settingsKey = w'.media.read access'.medium settingsKey) :
    AccordFrom Alike w w' (makeContext nested access) (makeContext nested' access') := by
  refine Settings.load_accord (store_read_accord h reads) (fun n u u' hu => hu.record _)
    fun v skip u u' hu => ?_
  have size : u.contexts.size = u'.contexts.size := by
    simpa [World.memory] using congrArg (·.contexts.size) hu.memory
  refine AccordFrom.bind ?_ fun i x x' put _ hx => ?_
  · exact accordFrom_put size (hu.pushContext access access' v)
  cases put
  have fresh : (((contextSettingsSite access u.contexts.size).value.cell
      { u with contexts :=
        u.contexts.push ⟨.new .panels, ⟨.new settingsKey .initial v, access⟩⟩ }).nextId = 0) := by
    simp [contextSettingsSite, Settings.Site.value, Array.getD]
    rfl
  exact ((contextSettingsSite_common access _).keep (fun _ _ => Alike.symm) hn (Access.hidden _)
    (Access.hidden access') hx fresh skip).bind fun _ y y' _ _ hy => .pure hy _

variable [Inhabited ρ] [Settings.Record ρ]

theorem loadRecord_accord (hn : Nested.Accord Alike InMemory nested nested') (h : Alike w w')
    (access access' : Access) {key : String} (default : ρ)
    (reads : w.media.read access.medium key = w'.media.read access'.medium key) :
    AccordFrom Alike w w' (loadRecord nested access key default)
      (loadRecord nested' access' key default) := by
  refine Settings.load_accord (store_read_accord h reads) (fun n u u' hu => hu.record _)
    fun v skip u u' hu => ?_
  have size : u.records.size = u'.records.size := by
    simpa [World.memory] using congrArg (·.records.size) hu.memory
  refine AccordFrom.bind ?_ fun i x x' put _ hx => ?_
  · exact accordFrom_put size (hu.pushRecord access access' key default v)
  cases put
  have fresh : (((recordSite access u.records.size).value.cell
      { u with records := u.records.push ⟨.new key default v, access⟩ }).nextId = 0) := by
    simp [recordSite, Settings.Site.value, Array.getD]
    rfl
  exact ((recordSite_common access _).keep (fun _ _ => Alike.symm) hn (Access.hidden _)
    (Access.hidden access') hx fresh skip).bind fun _ y y' _ _ hy => .pure hy _

/-! ## Weather -/

variable [Text.Describe ρ]

/-- The language of sessions whose media are changed by somebody else whenever the session writes a
    line; how, may depend on all that has happened. -/
def weathered (ρ : Type) [Inhabited ρ] [Settings.Record ρ] [Text.Describe ρ]
    (weather : World ρ → Media) : Language (World ρ) (Step ρ) (Reply ρ) (Incident ρ) where
  journal := World.journal
  record e w := { w.record e with media := weather w }
  perform := perform

/-- In calm weather nobody changes the media. -/
theorem weathered_calm : weathered ρ World.media = language ρ := rfl

/-- The weather in which a write to a medium with switches has the outcome `outcome n` if there were
    `n` attempts to write before. -/
def faults (medium : Medium) (outcome : Nat → FaultMode) (w : World ρ) : Media :=
  w.media.turn medium none (some (outcome (attempts 0 w.journal.toList).length))

omit [Inhabited ρ] [Settings.Record ρ] [Text.Describe ρ] in
theorem mode_faults {i s : Nat} (there : s < w.media.switches.size) (outcome : Nat → FaultMode) :
    (faults (.switched i s) outcome w).mode s (·.write) =
      outcome (attempts 0 w.journal.toList).length :=
  Media.mode_turn there _

omit [Inhabited ρ] [Settings.Record ρ] [Text.Describe ρ] in
theorem read_faults (outcome : Nat → FaultMode) (medium medium' : Medium) (key : String) :
    (faults medium' outcome w).read medium key = w.media.read medium key :=
  Media.read_turn medium' _

variable {weather weather' : World ρ → Media}

theorem weathered_accord :
    Language.Accord Alike InMemory (weathered ρ weather) (weathered ρ weather') where
  began _ _ _ h := (h.record _).media _ _
  did _ _ _ _ _ h := (h.record _).media _ _
  inner _ _ _ _ h := (h.record _).media _ _
  perform _ _ _ hn hs := perform_accord hn hs

/-- The world in which a step begins under some weather. -/
def outset (weather : World ρ → Media) (s : Step ρ) (w : World ρ) : World ρ :=
  (weathered ρ weather).record (.began s) w

variable {s s' : Step ρ} {budget : Nat} {name storage storage' key : String}
  {medium medium' : Medium}

/-- Two steps about media, of which it is not seen that they begin, are in accord if they do the
    same. -/
theorem exec_accord (h : Alike w w') (forgotten : isRemembered (.began s) = false)
    (forgotten' : isRemembered (.began s') = false)
    (performs : ∀ nested nested', Nested.Accord Alike InMemory nested nested' →
      Alike (outset weather s w) (outset weather' s' w') →
      AccordFrom Alike (outset weather s w) (outset weather' s' w') (perform nested s)
        (perform nested' s')) :
    AccordFrom Alike w w' ((weathered ρ weather).exec budget s)
      ((weathered ρ weather').exec budget s') := by
  have recorded := (unseen_record forgotten _ _ (unseen_record forgotten' _ _ h.symm).symm)
  have alike : Alike (outset weather s w) (outset weather' s' w') := recorded.media _ _
  cases budget with
  | zero => exact ⟨rfl, h⟩
  | succ budget =>
    refine (AccordFrom.modify alike).bind fun _ v v' ran ran' _ => ?_
    cases ran
    cases ran'
    exact performs _ _ (weathered_accord.nested (weathered_accord.exec budget)) alike

/-- Loads of a record are in accord if they read the same. -/
theorem exec_load_accord (h : Alike w w') (there : w.storages.get? storage = some medium)
    (there' : w'.storages.get? storage' = some medium') (default : ρ)
    (reads : (weather w).read medium key = (weather' w').read medium' key) :
    AccordFrom Alike w w' ((weathered ρ weather).exec budget (.load name storage key default))
      ((weathered ρ weather').exec budget (.load name storage' key default)) := by
  refine exec_accord h rfl rfl fun nested nested' hn alike => .look_apart ?_
  have here : (outset weather (.load name storage key default) w).storages.get? storage =
    some medium := there
  have here' : (outset weather' (.load name storage' key default) w').storages.get? storage' =
    some medium' := there'
  rw [here, here']
  refine (loadRecord_accord hn alike ⟨medium, some storage⟩ ⟨medium', some storage'⟩ default
    reads).bind fun i u u' _ _ hu => ?_
  have named (u u' : World ρ) (hu : Alike u u') :
      Alike (World.settle { u with recordNames := u.recordNames.insert name i })
        (World.settle { u' with recordNames := u'.recordNames.insert name i }) :=
    hu.change (fun m => { m with recordNames := m.recordNames.insert name i }) rfl rfl
      ⟨hu.tame.records, hu.tame.contexts⟩
  refine (accord_modify named).bind (fun _ v v' hv => AccordFrom.map (.view hv ?_) _) u u' hu
  exact congrArg (·.value.value) ((recordSite_common ⟨.disabled, none⟩ i).settings v v' hv)

omit [Inhabited ρ] [Settings.Record ρ] [Text.Describe ρ] in
/-- If the configured database cannot be opened, a context is made without a medium. -/
theorem perform_bootstrap_unopened {config : Config} {e : StorageError}
    (unopened : (w.media.openDatabase config.settingsPath).1 = .error e) :
    (bootstrap nested config).perform w =
      (makeContext nested ⟨.disabled, none⟩).perform
        (World.note (.notice (.storageNotOpened config.settingsPath e))
          { w with media := (w.media.openDatabase config.settingsPath).2 }) := by
  rw [bootstrap, perform_bind, perform_view]
  revert unopened
  rcases w.media.openDatabase config.settingsPath with ⟨result, media⟩
  rintro rfl
  simp only [perform_bind, perform_modify]

/-- A context that is made without a medium is in accord with one that is made on a medium with
    nothing in it. -/
theorem exec_bootstrap_accord (h : Alike w w') {config : Config} {e : StorageError}
    (unopened : ((weather w).openDatabase config.settingsPath).1 = .error e)
    (there : w'.storages.get? storage = some medium)
    (nothing : (weather' w').read medium settingsKey = .answered none) :
    AccordFrom Alike w w' ((weathered ρ weather).exec budget (.bootstrap name config))
      ((weathered ρ weather').exec budget (.context name storage)) := by
  refine exec_accord h rfl rfl fun nested nested' hn alike => ?_
  have makes : AccordFrom Alike (outset weather (.bootstrap name config) w)
      (outset weather' (.context name storage) w') (bootstrap nested config)
      (makeContext nested' ⟨medium, some storage⟩) := by
    refine AccordFrom.of_perform ?_ (perform_bootstrap_unopened unopened) rfl
    refine makeContext_accord hn ?_ ⟨.disabled, none⟩ ⟨medium, some storage⟩ nothing.symm
    exact unseen_record rfl _ _ (alike.change id rfl rfl alike.tame)
  have named (i : Nat) (u u' : World ρ) (hu : Alike u u') :
      Alike (World.settle { u with contextNames := u.contextNames.insert name i })
        (World.settle { u' with contextNames := u'.contextNames.insert name i }) :=
    hu.change (fun m => { m with contextNames := m.contextNames.insert name i }) rfl rfl
      ⟨hu.tame.records, hu.tame.contexts⟩
  have here : (outset weather' (.context name storage) w').storages.get? storage = some medium :=
    there
  refine AccordFrom.of_perform (makes.bind fun i u u' _ _ hu => (accord_modify (named i)).bind
    (fun _ v v' hv => .pure hv Reply.done) u u' hu) rfl ?_
  simp only [perform, withMedium, perform_bind, perform_view, here]

/-! ## Steps on media and files -/

/-- A step on a medium or a file. -/
inductive OnMedia : Step ρ → Prop where
  | medium (name : String) (step : MediumStep) : OnMedia (.medium name step)
  | file (step : FileStep) : OnMedia (.file step)

theorem Alike.exec_onMedia (h : Alike w w') (hs : OnMedia s) :
    Alike (((weathered ρ weather).exec budget s).perform w).2 w' := by
  cases budget with
  | zero => exact h
  | succ budget =>
    have begun (forgotten : isRemembered (.began s) = false) : Alike (outset weather s w) w' :=
      Alike.media (unseen_record forgotten w w' h) _ _
    cases hs with
    | medium name step => exact (aside_mediumStep step name _ _ (begun rfl)).2
    | file step => exact (aside_fileStep step _ _ (begun rfl)).2

/-- Whatever is done to media and files, in either session, they still have the same in memory. -/
theorem Alike.run_onMedia (h : Alike w w') {steps : List (Step ρ)} (hs : ∀ s ∈ steps, OnMedia s) :
    Alike ((weathered ρ weather).run budget steps w).2 w' := by
  induction steps generalizing w with
  | nil => exact h
  | cons s rest ih =>
    exact ih (h.exec_onMedia (hs s List.mem_cons_self)) fun t ht => hs t (List.mem_cons_of_mem s ht)

/-! ## Runs -/

/-- Under both weathers two runs end alike, step by step, and leave the same in memory. -/
def SameRuns (weather weather' : World ρ → Media) (budget : Nat) (w w' : World ρ)
    (steps steps' : List (Step ρ)) : Prop :=
  ((weathered ρ weather).run budget steps w).1.map (·.ending) =
      ((weathered ρ weather').run budget steps' w').1.map (·.ending) ∧
    Alike ((weathered ρ weather).run budget steps w).2
      ((weathered ρ weather').run budget steps' w').2

/-- What becomes of what is written never shows in memory.  In two sessions that have the same in
    memory, runs of the same steps in memory end alike and leave the same in memory, whatever the
    media are and whatever the weather is like on either side, be it `faults` with any outcomes: the
    same values, versions and subscribers, and the same past of changes and calls.  So it is after a
    record was loaded that is read alike on both sides, the first write of which is one of those
    that may fail; and so it is if a context was made without a medium on one side, as its database
    could not be opened, and on a medium with nothing in it on the other. -/
theorem writes_never_show (weather weather' : World ρ → Media) (budget : Nat) {w w' : World ρ}
    (alike : Alike w w') {steps : List (Step ρ)} (inMemory : ∀ s ∈ steps, InMemory s) :
    SameRuns weather weather' budget w w' steps steps ∧
    (∀ (name storage storage' key : String) (default : ρ) (medium medium' : Medium),
      w.storages.get? storage = some medium → w'.storages.get? storage' = some medium' →
      (weather w).read medium key = (weather' w').read medium' key →
      SameRuns weather weather' budget w w' (.load name storage key default :: steps)
        (.load name storage' key default :: steps)) ∧
    ∀ (name storage : String) (config : Config) (medium : Medium) (e : StorageError),
      ((weather w).openDatabase config.settingsPath).1 = .error e →
      w'.storages.get? storage = some medium →
      (weather' w').read medium settingsKey = .answered none →
      SameRuns weather weather' budget w w' (.bootstrap name config :: steps)
        (.context name storage :: steps) := by
  have further (v v' : World ρ) (h : Alike v v') :
      SameRuns weather weather' budget v v' steps steps :=
    weathered_accord.run budget inMemory h
  refine ⟨further w w' alike, ?_, ?_⟩
  · intro name storage storage' key default medium medium' there there' reads
    exact Language.run_cons_accord (exec_load_accord alike there there' default reads) further
  · intro name storage config medium e unopened there nothing
    exact Language.run_cons_accord (exec_bootstrap_accord alike unopened there nothing) further

/-- Settings are loaded from a medium with switches, a subscriber sets them again and panics, and
    they are set and reset.  It does not show whether every write is done, or the first panics, the
    second fails and no other finds the medium. -/
theorem writes_never_show_faults :
    let opened := ((language UserSettings).run 1
      [.medium "m" (.openAs (.switched [("k", "\x7b\x7d".toUTF8)] ⟨.ok, .ok⟩))]
      (World.start (.empty []))).2
    let change (limit : Int64) : Step UserSettings := .settings "r" (.value (.set ⟨limit, []⟩))
    let steps := [.settings "r" (.value (.subscribe "s" [⟨fun _ => true, 2, [change 3, .panic]⟩])),
      change 2, .settings "r" .reset]
    let fails : Nat → FaultMode
      | 0 => .panic
      | 1 => .io
      | _ => .unavailable
    SameRuns (faults (.switched 0 0) fun _ => .ok) (faults (.switched 0 0) fails) 9 opened opened
      (.load "r" "m" "k" .initial :: steps) (.load "r" "m" "k" .initial :: steps) := by
  intro opened change steps fails
  have once : Alike opened (World.start (.empty [])) := by
    refine (alike_start (.empty []) (.empty [])).run_onMedia fun s hs => ?_
    cases List.mem_singleton.1 hs
    exact .medium _ _
  have changes (limit : Int64) : InMemory (change limit) := .settings _ _ nofun
  have called : ∀ s ∈ [change 3, .panic], InMemory s := by
    simp [changes, InMemory.panic]
  have inMemory : ∀ s ∈ steps, InMemory s := by
    intro s hs
    simp only [steps, List.mem_cons, List.not_mem_nil, or_false] at hs
    obtain rfl | rfl | rfl := hs
    · exact .settings _ _ called
    · exact changes 2
    · exact .settings _ _ nofun
  refine (writes_never_show _ _ 9 ⟨rfl, once.tame⟩ inMemory).2.1 "r" "m" "m" "k" .initial
    (.switched 0 0) (.switched 0 0) rfl rfl ?_
  rw [read_faults, read_faults]

end LiveState.Session
