import LiveState.Proofs.Registry.Course
import LiveState.Proofs.Settings.Course
import LiveState.Proofs.Storage.Media
import LiveState.Proofs.Session.Output

/-! # Sessions and courses

Sessions stay on every course that watches nothing but which media are open, which records there
are, which names they have, and whose subscriptions are kept.
-/

namespace LiveState

open Course

/-! ## Commands -/

namespace Command

variable {W σ : Type} {c : Course W} {panels : Registry.Site W σ Panel}
  {settings : Settings.Site W σ UserSettings} {nested nested' : Nested W σ}

theorem mount_carries (note : ∀ i, c.Admits (panels.note i))
    (addKind : ∀ kind, c.Carries (panels.addKind nested kind) (panels.addKind nested' kind))
    (names : List String) :
    c.Carries (mount panels nested names) (mount panels nested' names) := by
  induction names with
  | nil => exact carries_pure _
  | cons name names ih =>
    simp only [mount]
    split
    · exact (addKind _).bind fun _ => ih
    · exact (note _).carries.bind fun _ => ih.bind fun _ => carries_pure _

theorem panels_carries (note : ∀ i, c.Admits (panels.note i))
    (addKind : ∀ kind, c.Carries (panels.addKind nested kind) (panels.addKind nested' kind))
    (names : List String) :
    c.Carries ((Command.panels names).execute panels settings nested)
      ((Command.panels names).execute panels settings nested') := by
  refine (mount_carries note addKind names).bind fun unknown => Carries.look fun w hw => ?_
  simp only
  split
  · exact .pure hw _
  · exact .look (.pure hw _)

theorem execute_carries (note : ∀ i, c.Admits (panels.note i))
    (addKind : ∀ kind, c.Carries (panels.addKind nested kind) (panels.addKind nested' kind))
    (set : ∀ v, c.Carries (settings.value.set (settings.call nested) v)
      (settings.value.set (settings.call nested') v)) (command : Command) :
    c.Carries (command.execute panels settings nested)
      (command.execute panels settings nested') := by
  have shown : c.Carries (showSettings settings) (showSettings settings) :=
    Carries.look fun w hw => .pure hw _
  cases command with
  | settings => exact shown
  | setLimit limit =>
    refine Carries.bind (fun w hw => Place.carriesFrom_look ?_) fun _ => carries_pure _
    exact (CarriesFrom.pure hw ()).bind fun _ v _ hv => set _ v hv
  | reset => exact (Carries.look fun w hw => set _ w hw).bind fun _ => shown
  | panels names => exact panels_carries note addKind names

end Command

namespace Session

variable {ρ : Type} {c : Course (World ρ)}

/-! ## Tables -/

theorem getD_modify {κ : Type} {xs : Array κ} {i : Nat} (small : i < xs.size) (f : κ → κ)
    (blank : κ) : (xs.modify i f).getD i blank = f (xs.getD i blank) := by
  simp [Array.getD, small, Array.getElem_modify]

theorem getD_modify_of_ne {κ : Type} {i j : Nat} (h : j ≠ i) (xs : Array κ) (f : κ → κ)
    (blank : κ) : (xs.modify j f).getD i blank = xs.getD i blank := by
  simp only [Array.getD, Array.size_modify]
  split
  · simp [Array.getElem_modify, h]
  · rfl

theorem context_cell_adjust {w : World ρ} {i : Nat} (small : i < w.contexts.size) (a : Access)
    (f : Observable UserSettings (Listener (Step ρ) UserSettings) →
      Observable UserSettings (Listener (Step ρ) UserSettings)) :
    (contextSettingsSite a i).value.cell ((contextSettingsSite a i).value.adjust f w) =
      f ((contextSettingsSite a i).value.cell w) :=
  congrArg (fun c : Context (Step ρ) => c.settings.settings.value) (getD_modify small ..)

theorem World.needs_of_context {w : World ρ} {i : Nat} (small : i < w.contexts.size) {name : String}
    (named : w.contextNames.get? name = some i) {l : Location}
    (uses : (w.contextAccess i).medium = .database l) : w.needs l = true := by
  obtain ⟨entry, found, number⟩ := Option.map_eq_some_iff.1 named
  have there : w.contexts[i]? = some (w.contexts.getD i .blank) := by
    simp [Array.getD, small]
  have used : w.contextNames.entries.any (fun e =>
      (w.contexts[e.2]?).any fun c => c.settings.access.medium = .database l) = true := by
    refine List.any_eq_true.2 ⟨entry, List.mem_of_find?_eq_some found, ?_⟩
    rw [number, there]
    exact decide_eq_true uses
  simp [World.needs, used]

/-! ## Media -/

theorem respond_carries {α : Type} (r : Response α) :
    c.Carries (respond (ρ := ρ) r) (respond r) := by
  cases r with
  | answered a => exact carries_pure _
  | failed e => exact carries_pure _
  | panicked => exact carries_panic

theorem readMedium_carries (medium : Medium) (key : String) :
    c.Carries (readMedium (ρ := ρ) medium key) (readMedium medium key) :=
  Carries.look fun w hw => respond_carries _ w hw

theorem writeMedium_carries {medium : Medium} {key : String} {bytes : ByteArray}
    (write : c.Admits fun w => { w with media := (w.media.write medium key bytes).2 }) :
    c.Carries (writeMedium medium key bytes) (writeMedium medium key bytes) :=
  Carries.look fun w hw => (CarriesFrom.modify (write w hw).1 (write w hw).2).bind fun _ _ _ hv =>
    respond_carries _ _ hv

theorem store_read_carries (record : ∀ key name, c.Admits (World.note (.reading key name)))
    (a : Access) (key : String) : c.Carries (a.store.read key) (a.store.read key) := by
  obtain ⟨medium, _ | name⟩ := a
  · exact readMedium_carries medium key
  · exact (record key name).carries.bind fun _ => readMedium_carries medium key

theorem store_write_carries {a : Access} {key : String} {bytes : ByteArray}
    (record : ∀ name, c.Admits (World.note (.writing key name bytes)))
    (write : c.Admits fun w => { w with media := (w.media.write a.medium key bytes).2 }) :
    c.Carries (a.store.write key bytes) (a.store.write key bytes) := by
  obtain ⟨medium, _ | name⟩ := a
  · exact writeMedium_carries write
  · exact (record name).carries.bind fun _ => writeMedium_carries write

theorem openMedium_has {opening : Opening} {w w' : World ρ} {medium : Medium}
    (has : ∀ name medium, w.storages.get? name = some medium → w.media.Has medium)
    (ran : (openMedium opening).perform w = (.ok (some (.ok medium)), w')) :
    w'.media.Has medium := by
  cases opening with
  | memory | privateDatabase =>
    cases ran
    exact Media.newRegion_has _
  | switched =>
    cases ran
    exact Media.newSwitched_has _ _
  | database path =>
    have ends : ((.ok (some (w.media.openDatabase path).1),
        { w with media := (w.media.openDatabase path).2 }) :
          Except Interrupt (Option (Except StorageError Medium)) × World ρ) =
        (.ok (some (.ok medium)), w') := ran
    obtain ⟨result, rfl⟩ := Prod.mk.inj ends
    exact (Media.openDatabase_has path).2 medium (by simpa using result)
  | share name =>
    have ends : ((.ok ((w.storages.get? name).map .ok), w) :
          Except Interrupt (Option (Except StorageError Medium)) × World ρ) =
        (.ok (some (.ok medium)), w') := ran
    obtain ⟨result, rfl⟩ := Prod.mk.inj ends
    exact has name medium (by simpa using result)
  | disabled =>
    cases ran
    trivial

theorem withMedium_carries {f f' : Medium → Act (World ρ) (Reply ρ)}
    (k : ∀ medium, c.Carries (f medium) (f' medium)) (name : String) :
    c.Carries (withMedium name f) (withMedium name f') := by
  refine Carries.look fun w hw => ?_
  cases w.storages.get? name with
  | none => exact .pure hw _
  | some medium => exact k medium w hw

theorem turn_carries {name : String} {reads writes : Option FaultMode}
    (turn : ∀ medium, c.Admits fun w => { w with media := w.media.turn medium reads writes }) :
    c.Carries ((MediumStep.turn reads writes).perform (ρ := ρ) name)
      ((MediumStep.turn reads writes).perform name) :=
  withMedium_carries (fun medium => (turn medium).carries.bind fun _ => carries_pure _) name

theorem read_carries (name key : String) :
    c.Carries ((MediumStep.read key).perform (ρ := ρ) name)
      ((MediumStep.read key).perform name) := by
  refine withMedium_carries (fun medium => (readMedium_carries medium key).bind fun r => ?_) name
  cases r <;> exact carries_pure _

/-! ## Subscriptions -/

/-- Asking something of a kept subscription stays on the course, if ending it does wherever it was
    made. -/
theorem askSubscription_carries_of [Inhabited ρ]
    (records : ∀ i id, c.Carries ((recordSite (ρ := ρ) ⟨.disabled, none⟩ i).value.unsubscribe id)
      ((recordSite ⟨.disabled, none⟩ i).value.unsubscribe id))
    (settings : ∀ i id, c.Carries ((contextSettingsSite ⟨.disabled, none⟩ i).value.unsubscribe id)
      ((contextSettingsSite ⟨.disabled, none⟩ i).value.unsubscribe id))
    (panels : ∀ i id, c.Carries ((contextPanelsSite i).resolved.unsubscribe id)
      ((contextPanelsSite i).resolved.unsubscribe id))
    (forgotten : ∀ name, c.Admits fun w => { w with subscriptions := w.subscriptions.erase name })
    (name : String) (request : Subscription.Request) :
    c.Carries (askSubscription (ρ := ρ) name request) (askSubscription name request) := by
  refine Carries.look fun w hw => ?_
  rcases w.subscriptions.get? name with _ | ⟨i | i | i, id⟩
  · exact .pure hw _
  · exact Subscription.Request.perform_carries (records i id) (forgotten name) request w hw
  · exact Subscription.Request.perform_carries (settings i id) (forgotten name) request w hw
  · exact Subscription.Request.perform_carries (panels i id) (forgotten name) request w hw

/-! ## Courses that watch little -/

/-- A course that watches nothing about the media but which are open. -/
structure MediaFree (c : Course (World ρ)) : Prop where
  media : ∀ w, c.sound w → ∀ m : Media, w.media.regions.size ≤ m.regions.size →
    c.sound { w with media := m } ∧ c.leads false w { w with media := m }
  closed : ∀ name, c.Admits fun w => { w with storages := w.storages.erase name }
  opened : ∀ w u opening medium, c.sound w →
    (openMedium opening).perform w = (.ok (some (.ok medium)), u) → c.sound u → ∀ name,
    c.sound { u with storages := u.storages.insert name medium } ∧
      c.leads false u { u with storages := u.storages.insert name medium }

namespace MediaFree

theorem settle (h : MediaFree c) : c.Admits World.settle :=
  fun w hw => h.media w hw _ (Nat.le_refl _)

theorem media_carriesFrom (h : MediaFree c) {w : World ρ} (hw : c.sound w) {m : Media}
    (grows : w.media.regions.size ≤ m.regions.size) :
    c.CarriesFrom w (modify fun w => { w with media := m } : Act (World ρ) Unit)
      (modify fun w => { w with media := m }) :=
  .modify (h.media w hw m grows).1 (h.media w hw m grows).2

theorem write_admits (h : MediaFree c) (medium : Medium) (key : String) (bytes : ByteArray) :
    c.Admits fun w => { w with media := (w.media.write medium key bytes).2 } :=
  fun w hw => h.media w hw _ (Nat.le_of_eq Media.size_regions_write.symm)

theorem openMedium_carries (h : MediaFree c) (opening : Opening) :
    c.Carries (openMedium (ρ := ρ) opening) (openMedium opening) := by
  cases opening with
  | memory | privateDatabase | switched =>
    refine Carries.look fun w hw => (h.media_carriesFrom hw ?_).bind fun _ v _ hv => .pure hv _
    simp
  | database path =>
    exact Carries.look fun w hw =>
      (h.media_carriesFrom hw (Media.openDatabase_has path).1).bind fun _ v _ hv => .pure hv _
  | share name => exact Carries.look fun w hw => .pure hw _
  | disabled => exact carries_pure _

theorem mediumStep_carries (h : MediaFree c) (name : String) (step : MediumStep) :
    c.Carries (step.perform (ρ := ρ) name) (step.perform name) := by
  cases step with
  | openAs opening =>
    refine fun w hw => (h.openMedium_carries opening w hw).bind fun result v ran hv => ?_
    rcases result with _ | _ | medium
    · exact .pure hv _
    · exact .pure hv _
    · obtain ⟨opened, leads⟩ := h.opened w v opening medium hw ran hv name
      obtain ⟨settled, leads'⟩ := h.settle _ opened
      exact (CarriesFrom.modify (w := v) settled (leads_trans leads leads')).bind fun _ u _ hu =>
        .pure hu _
  | close => exact (h.settle.comp (h.closed name)).carries.bind fun _ => carries_pure _
  | turn reads writes =>
    exact turn_carries fun medium w hw =>
      h.media w hw _ (Nat.le_of_eq (Media.size_regions_turn reads writes).symm)
  | read key => exact read_carries name key
  | write key bytes =>
    refine withMedium_carries
      (fun medium => (writeMedium_carries (h.write_admits medium key bytes)).bind fun r => ?_) name
    cases r <;> exact carries_pure _

theorem fileStep_carries (h : MediaFree c) (step : FileStep) :
    c.Carries (step.perform (ρ := ρ)) step.perform := by
  have set (files : FileTree) : c.Carries (setFiles (ρ := ρ) files) (setFiles files) :=
    fun w hw =>
      have made := h.media w hw { w.media with files := files } (Nat.le_refl _)
      .modify made.1 made.2
  cases step with
  | makeDirectories path =>
    exact Carries.look fun w hw => (set _ w hw).bind fun _ v _ hv => .pure hv _
  | write path content =>
    refine Carries.look fun w hw => ?_
    cases w.media.files.writeFile path content with
    | some files => exact (set files w hw).bind fun _ v _ hv => .pure hv _
    | none => exact .pure hw _
  | status path => exact (carries_view _).map _
  | putText path key text =>
    exact Carries.look fun w hw => (set _ w hw).bind fun _ v _ hv => .pure hv _
  | makeForeign path =>
    exact Carries.look fun w hw => (set _ w hw).bind fun _ v _ hv => .pure hv _

/-- A context is made as configured, be it without a medium. -/
theorem bootstrap_carries (h : MediaFree c) (note : ∀ i, c.Admits (World.note i))
    {nested nested' : Nested (World ρ) (Step ρ)}
    (make : ∀ access, c.Carries (makeContext nested access) (makeContext nested' access))
    (config : Config) : c.Carries (bootstrap nested config) (bootstrap nested' config) := by
  refine Carries.look fun w hw => ?_
  have grows := (Media.openDatabase_has (m := w.media) config.settingsPath).1
  revert grows
  rcases w.media.openDatabase config.settingsPath with ⟨e | medium, media⟩ <;> intro grows
  · refine (h.media_carriesFrom hw grows).bind fun _ u _ hu => ?_
    exact ((note _).carries u hu).bind fun _ v _ hv => make _ v hv
  · exact (h.media_carriesFrom hw grows).bind fun _ v _ hv => make _ v hv

end MediaFree

/-- A course that watches nothing but which media are open, which records there are, which names
    they have, and whose subscriptions are kept. -/
structure Loose (c : Course (World ρ)) : Prop extends MediaFree c where
  cut : ∀ w, c.sound w → c.leads true w w
  record : ∀ e, c.Admits (World.record e)
  contexts : ∀ f : World ρ → Array (Context (Step ρ)), c.Admits fun w => { w with contexts := f w }
  contextNames : ∀ f : World ρ → OrderedMap String Nat,
    c.Admits fun w => { w with contextNames := f w }
  modified : ∀ i f, c.Admits fun w => { w with records := w.records.modify i f }
  added : ∀ k, c.Admits fun w => { w with records := w.records.push k }
  unnamed : ∀ name, c.Admits fun w => { w with recordNames := w.recordNames.erase name }
  forgotten : ∀ name, c.Admits fun w => { w with subscriptions := w.subscriptions.erase name }
  enrolled : ∀ source name id, (∀ i, source ≠ .settings i) → c.Admits (World.enrol source name id)
  /-- Names go to records that are there. -/
  known : ∀ w, c.sound w → ∀ name i, w.recordNames.get? name = some i → i < w.records.size
  named : ∀ w, c.sound w → ∀ name i, i < w.records.size →
    c.sound { w with recordNames := w.recordNames.insert name i } ∧
      c.leads false w { w with recordNames := w.recordNames.insert name i }
  enrolledRecord : ∀ w, c.sound w → ∀ name i id, i < w.records.size →
    c.sound (w.enrol (.settings i) name id) ∧ c.leads false w (w.enrol (.settings i) name id)
  /-- No record is taken away. -/
  grows : ∀ b w w', c.leads b w w' → w.records.size ≤ w'.records.size

namespace Loose

/-- A loose course stays loose from where a record is. -/
theorem restrict (h : Loose c) (i : Nat) :
    Loose (c.restrict (fun w => i < w.records.size) fun b w w' leads small =>
      Nat.lt_of_lt_of_le small (h.grows b w w' leads)) where
  cut w hw := ⟨h.cut w hw.1, id⟩
  record e := (h.record e).restrict
  media w hw m grows :=
    have made := h.media w hw.1 m grows
    ⟨⟨made.1, hw.2⟩, made.2, fun small => small⟩
  closed name := (h.closed name).restrict
  opened w u opening medium hw ran hu name :=
    have made := h.opened w u opening medium hw.1 ran hu.1 name
    ⟨⟨made.1, hu.2⟩, made.2, fun small => small⟩
  contexts f := (h.contexts f).restrict
  contextNames f := (h.contextNames f).restrict
  modified j f := (h.modified j f).restrict
  added k := (h.added k).restrict
  unnamed name := (h.unnamed name).restrict
  forgotten name := (h.forgotten name).restrict
  enrolled source name id other := (h.enrolled source name id other).restrict
  known w hw := h.known w hw.1
  named w hw name j small :=
    have made := h.named w hw.1 name j small
    ⟨⟨made.1, hw.2⟩, made.2, id⟩
  enrolledRecord w hw name j id small :=
    have made := h.enrolledRecord w hw.1 name j id small
    ⟨⟨made.1, hw.2⟩, made.2, fun small => small⟩
  grows b w w' leads := h.grows b w w' leads.1

theorem reading (h : Loose c) (a : Access) (key : String) :
    c.Carries (a.store.read key) (a.store.read key) :=
  store_read_carries (fun _ _ => h.record _) a key

theorem writing (h : Loose c) (a : Access) (key : String) (bytes : ByteArray) :
    c.Carries (a.store.write key bytes) (a.store.write key bytes) :=
  store_write_carries (fun _ => h.record _) (h.write_admits a.medium key bytes)

/-! ## Sites -/

section Sites

variable {nested nested' : Nested (World ρ) (Step ρ)}

theorem contextSettingsSite_steady (h : Loose c)
    (hn : Nested.Carried c (fun _ => True) nested nested') (access : Access) (i : Nat) :
    (contextSettingsSite access i).value.Steady c (Listener.Within fun _ => True)
      ((contextSettingsSite access i).call nested) ((contextSettingsSite access i).call nested') :=
  Listener.steady_of_admits (fun _ => h.contexts _) (fun _ => h.record _) hn.act
    (fun _ _ _ l _ => l.within_true) fun v =>
      Settings.Site.writeBack_carries (fun _ => h.record _) (h.writing access) v

theorem contextPanelsSite_steady (h : Loose c)
    (hn : Nested.Carried c (fun _ => True) nested nested') (i : Nat) :
    (contextPanelsSite (ρ := ρ) i).resolved.Steady c (Listener.Within fun _ => True)
      ((contextPanelsSite i).call nested) ((contextPanelsSite i).call nested') :=
  Listener.steady_of_admits (fun _ => h.contexts _) (fun _ => h.record _) hn.act
    (fun _ _ _ l _ => l.within_true) fun _ => carries_pure _

theorem contextPanelsSite_unwatched (h : Loose c) (i : Nat) :
    (contextPanelsSite (ρ := ρ) i).Unwatched c := ⟨h.contexts _, fun _ => h.record _⟩

theorem makeContext_carries (h : Loose c) (hn : Nested.Carried c (fun _ => True) nested nested')
    (access : Access) : c.Carries (makeContext nested access) (makeContext nested' access) := by
  refine Settings.load_carries (h.reading access settingsKey) (fun n => h.record _)
    (fun s => ?_) (fun i skip => Settings.Site.keep_carries
      (h.contextSettingsSite_steady hn access i) skip)
  exact Carries.look fun w hw => ((h.contexts _).carries w hw).bind fun _ v _ hv => .pure hv _

variable [Inhabited ρ] [Settings.Record ρ]

theorem recordSite_steady (h : Loose c) (hn : Nested.Carried c (fun _ => True) nested nested')
    (access : Access) (i : Nat) :
    (recordSite access i).value.Steady c (Listener.Within fun _ => True)
      ((recordSite access i).call nested) ((recordSite access i).call nested') :=
  Listener.steady_of_admits (fun _ => h.modified i _) (fun _ => h.record _) hn.act
    (fun _ _ _ l _ => l.within_true) fun v =>
      Settings.Site.writeBack_carries (fun _ => h.record _) (h.writing access) v

theorem loadRecord_carries (h : Loose c) (hn : Nested.Carried c (fun _ => True) nested nested')
    (access : Access) (key : String) (default : ρ) :
    c.Carries (loadRecord nested access key default) (loadRecord nested' access key default) := by
  refine Settings.load_carries (h.reading access key) (fun n => h.record _) (fun s => ?_)
    (fun i skip => Settings.Site.keep_carries (h.recordSite_steady hn access i) skip)
  exact Carries.look fun w hw => ((h.added _).carries w hw).bind fun _ v _ hv => .pure hv _

theorem loadRecord_lt (h : Loose c) (hn : Nested.Carried c (fun _ => True) nested nested')
    {access : Access} {key : String} {default : ρ} {w w' : World ρ} {i : Nat} (hw : c.sound w)
    (ran : (loadRecord nested access key default).perform w = (.ok i, w')) :
    i < w'.records.size := by
  have kept (u u' : World ρ) (s : Settings (Step ρ) ρ) (skip : Bool) (hu : c.sound u)
      (put : (do
        let i ← Act.view (·.records.size)
        modify fun w => { w with records := w.records.push ⟨s, access⟩ }
        return i : Act (World ρ) Nat).perform u = (.ok i, u'))
      (kept : ((recordSite access i).keep nested skip).perform u' = (.ok (), w')) :
      i < w'.records.size := by
    obtain ⟨sound, -⟩ := h.added ⟨s, access⟩ u hu
    cases put
    -- The record was put at the end, and keeping it takes no record away.
    have carried := Settings.Site.keep_carries (h.recordSite_steady hn access u.records.size) skip
      _ sound
    have grows := h.grows _ _ _ carried.leads
    rw [kept] at grows
    exact Nat.lt_of_lt_of_le (by simp) grows
  obtain ⟨result, u, read, rest⟩ := Settings.load_ok ran
  have sound := (Settings.readRecord_carries key (h.reading access key) default w hw).sound
  rw [read] at sound
  cases result with
  | ok v =>
    obtain ⟨u', put, keeps⟩ := rest
    exact kept u u' _ false sound put keeps
  | error e =>
    obtain ⟨u', put, keeps⟩ := rest
    exact kept _ u' _ true (h.record _ u sound).1 put keeps

end Sites

/-! ## Steps -/

section Steps

variable {nested nested' : Nested (World ρ) (Step ρ)}

theorem withRecord_carries (h : Loose c) {f f' : Nat → Act (World ρ) (Reply ρ)}
    (k : ∀ i w, c.sound w → i < w.records.size → c.CarriesFrom w (f i) (f' i)) (name : String) :
    c.Carries (withRecord name f) (withRecord name f') := by
  refine Carries.look fun w hw => ?_
  cases found : w.recordNames.get? name with
  | none => exact .pure hw _
  | some i => exact k i w hw (h.known w hw name i found)

theorem withContext_carries {f f' : Nat → Act (World ρ) (Reply ρ)}
    (k : ∀ i, c.Carries (f i) (f' i)) (name : String) :
    c.Carries (withContext name f) (withContext name f') := by
  refine Carries.look fun w hw => ?_
  cases w.contextNames.get? name with
  | none => exact .pure hw _
  | some i => exact k i w hw

variable [Inhabited ρ]

theorem askSubscription_carries (h : Loose c) (name : String) (request : Subscription.Request) :
    c.Carries (askSubscription (ρ := ρ) name request) (askSubscription name request) :=
  askSubscription_carries_of
    (fun i _ => Place.unsubscribe_carries (fun _ _ => h.record _) (h.modified i _) (h.modified i _))
    (fun _ _ => Place.unsubscribe_carries (fun _ _ => h.record _) (h.contexts _) (h.contexts _))
    (fun _ _ => Place.unsubscribe_carries (fun _ _ => h.record _) (h.contexts _) (h.contexts _))
    h.forgotten name request

variable [Settings.Record ρ] [Text.Describe ρ]

/-- Whatever a step does, it stays on a loose course. -/
theorem heeds (h : Loose c) : (language ρ).Heeds c fun _ => True where
  cut := h.cut
  began s := h.record _
  did name s r := h.record _
  inner s r := h.record _
  perform nested nested' s hn _ := by
    cases s with
    | subscription name request => exact (h.askSubscription_carries name request).map _
    | panic => exact carries_panic
    | file step => exact h.fileStep_carries step
    | medium name step => exact h.mediumStep_carries name step
    | load name storage key default =>
      refine withMedium_carries (fun medium w hw => ?_) storage
      -- The name goes to a record that is there, which needs to be known about this very run.
      refine (h.loadRecord_carries hn _ key default w hw).bind fun i u ran hu => ?_
      obtain ⟨named, leads⟩ := h.named u hu name i (h.loadRecord_lt hn hw ran)
      obtain ⟨settled, leads'⟩ := h.settle _ named
      refine (CarriesFrom.modify (w := u) settled (leads_trans leads leads')).bind
        fun _ v _ hv => ?_
      exact (carries_view _ v hv).map _
    | settings name action =>
      refine h.withRecord_carries (fun i w hw small => CarriesFrom.look ?_) name
      -- While the action goes on the record stays there, as no record is ever taken away.
      have inside := h.restrict i
      refine CarriesFrom.unrestrict (CarriesFrom.map (Settings.Action.perform_carries hn.restrict
        ((inside.recordSite_steady hn.restrict _ i).mono fun _ h => h.1)
        (fun name' u _ _ id v _ hv => ?_) action (fun _ _ => trivial) w ⟨hw, small⟩) _)
      exact inside.enrolledRecord v hv name' i id hv.2
    | context name storage =>
      refine withMedium_carries (fun medium => ?_) storage
      exact (h.makeContext_carries hn _).bind fun i =>
        (h.settle.comp (h.contextNames _)).carries.bind fun _ => carries_pure _
    | bootstrap name config =>
      exact (h.bootstrap_carries (fun _ => h.record _) (h.makeContext_carries hn) config).bind fun i =>
        (h.settle.comp (h.contextNames _)).carries.bind fun _ => carries_pure _
    | drop name =>
      have freed := (h.contextNames fun w => w.contextNames.erase name).comp (h.unnamed name)
      exact (h.settle.comp freed).carries.bind fun _ => carries_pure _
    | contextSettings name action =>
      refine withContext_carries (fun i => Carries.look fun w hw => ?_) name
      refine CarriesFrom.map (Settings.Action.perform_carries hn
        ((h.contextSettingsSite_steady hn _ i).mono fun _ h => h.1)
        (fun name' u _ _ id v _ hv => ?_) action (fun _ _ => trivial) w hw) _
      exact h.enrolled (.contextSettings i) name' id (by simp) v hv
    | contextPanels name action =>
      refine withContext_carries (fun i w hw => ?_) name
      refine CarriesFrom.map (Registry.Action.perform_carries (h.contextPanelsSite_unwatched i) hn
        (fun _ _ _ _ _ _ _ => trivial) ((h.contextPanelsSite_steady hn i).mono fun _ h => h.1)
        (fun name' u _ _ id v _ hv => ?_) action (fun _ _ => trivial) w hw) _
      exact h.enrolled (.contextPanels i) name' id (by simp) v hv
    | describe name pretty =>
      exact withContext_carries (fun i => Carries.look fun w hw => .pure hw _) name
    | execute name command room =>
      show c.Carries (perform nested (.execute name command room))
        (perform nested' (.execute name command room))
      rw [perform_execute, perform_execute]
      refine withContext_carries (fun i => Carries.look fun w hw => ?_) name
      have panels := h.contextPanelsSite_steady hn i
      refine (Command.execute_carries (fun _ => h.record _) (fun kind =>
        (h.contextPanelsSite_unwatched i).addKind ((h.contextPanelsSite_unwatched i).builds hn
          fun _ _ _ _ _ _ _ => trivial) panels.set kind)
        (h.contextSettingsSite_steady hn _ i).set command w hw).bind fun output v _ hv => ?_
      exact .pure hv _

end Steps

end Loose

end Session

end LiveState
