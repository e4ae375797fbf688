import LiveState.Proofs.Session.Attending

/-! # Contexts that are attended throughout

Whatever the steps of a session are, all contexts stay attended: at whatever depth a step begins,
and however the steps before it have ended.
-/

namespace LiveState.Session

open Course

variable {ρ : Type} [Inhabited ρ] {files : FileTree}

/-- The course on which all contexts stay attended. -/
def attending (ρ : Type) [Inhabited ρ] (files : FileTree) : Course (World ρ) where
  sound := World.Attended files
  leads _ := World.Onward
  refl := .refl
  trans h k := h.trans k

variable {w w' : World ρ} {a : Access} {i j : Nat}

/-! ## Changes -/

theorem attending_modified {f : World ρ → World ρ} (attended : (f w).Attended files)
    (onward : w.Onward (f w)) :
    (attending ρ files).CarriesFrom w (modify f : Act (World ρ) Unit) (modify f) :=
  .modify attended onward

theorem attending_record {e : Line ρ} (modest : Modest e) :
    (attending ρ files).Admits (World.record e) :=
  fun _ h => ⟨h.record modest, .of_eq rfl rfl⟩

/-- A context may change apart from its medium and its settings, and may hear of its settings. -/
theorem attending_modify (i : Nat) {f : Context (Step ρ) → Context (Step ρ)}
    (access : ∀ c, (f c).settings.access = c.settings.access)
    (key : ∀ c, (f c).settings.settings.key = c.settings.settings.key)
    (catalog : ∀ c, (f c).panels.catalog = c.panels.catalog)
    (keeper : ∀ c : Context (Step ρ), c.settings.settings.value.KeeperFirst (fun _ => True) →
      (f c).settings.settings.value.KeeperFirst fun _ => True)
    (value : ∀ c, (f c).settings.settings.value.value = c.settings.settings.value.value ∧
      (f c).settings.settings.value.version = c.settings.settings.value.version) :
    (attending ρ files).Admits fun w => { w with contexts := w.contexts.modify i f } :=
  fun _ h => ⟨h.modify i access key catalog keeper fun _ _ c => (value c).1,
    .modify access fun c => .unset (value c).1 (value c).2⟩

theorem attending_panels (i : Nat) {f : Registry (Step ρ) Panel → Registry (Step ρ) Panel}
    (catalog : ∀ r, (f r).catalog = r.catalog) :
    (attending ρ files).Admits ((contextPanelsSite i).adjust f) :=
  attending_modify i (fun _ => rfl) (fun _ => rfl) (fun _ => catalog _) (fun _ => id)
    fun _ => ⟨rfl, rfl⟩

theorem attending_resolved (i : Nat)
    (f : Observable (Resolved Panel) (Listener (Step ρ) (Resolved Panel)) →
      Observable (Resolved Panel) (Listener (Step ρ) (Resolved Panel))) :
    (attending ρ files).Admits ((contextPanelsSite i).resolved.adjust f) :=
  attending_panels i (f := fun r => { r with resolved := f r.resolved }) fun _ => rfl

theorem attending_adjust (a : Access) (i : Nat)
    {f : Observable UserSettings (Listener (Step ρ) UserSettings) →
      Observable UserSettings (Listener (Step ρ) UserSettings)}
    (keeper : ∀ o : Observable UserSettings (Listener (Step ρ) UserSettings),
      o.KeeperFirst (fun _ => True) → (f o).KeeperFirst fun _ => True)
    (value : ∀ o, (f o).value = o.value ∧ (f o).version = o.version) :
    (attending ρ files).Admits ((contextSettingsSite a i).value.adjust f) :=
  attending_modify i (fun _ => rfl) (fun _ => rfl) (fun _ => rfl) (fun _ => keeper _) fun _ => value _

theorem attending_modifyRecord (j : Nat) {f : Kept (Step ρ) ρ → Kept (Step ρ) ρ}
    (access : ∀ k, (f k).access = k.access) :
    (attending ρ files).Admits fun w => { w with records := w.records.modify j f } :=
  fun _ h => ⟨h.modifyRecord j access, .modifyRecord access⟩

theorem attending_adjust_record (a : Access) (j : Nat)
    (f : Observable ρ (Listener (Step ρ) ρ) → Observable ρ (Listener (Step ρ) ρ)) :
    (attending ρ files).Admits ((recordSite a j).value.adjust f) :=
  attending_modifyRecord j fun _ => rfl

/-- Nothing counts as written any more once a value has been stored. -/
theorem attending_committed (a : Access) (i : Nat) (v : UserSettings) :
    (attending ρ files).Admits ((contextSettingsSite a i).value.committed v) := by
  intro w h
  let number := ((contextSettingsSite a i).value.cell w).version + 1
  have noted := h.record (e := .happened (.contextSettings i (.value (.committed number v))))
    (by simp [Modest])
  have unfiled (u : UserSettings) : ((w.record (.happened (.contextSettings i
      (.value (.committed number v))))).filing i).filed ≠ some u := by
    rw [World.filing_record]
    simp [Filing.next, Filing.spoilIf]
  have stored : ((contextSettingsSite a i).value.adjust (·.store v) (w.record (.happened
      (.contextSettings i (.value (.committed number v)))))).Attended files :=
    noted.modify i (fun _ => rfl) (fun _ => rfl) (fun _ => rfl) (fun _ keeper => keeper.store v)
      fun u filed => absurd filed (unfiled u)
  have onward : w.Onward ((contextSettingsSite a i).value.adjust (·.store v) w) :=
    .modify (fun _ => rfl) fun _ => .store _ v
  exact ⟨stored, onward.trans (.of_eq rfl rfl)⟩

/-- Settings have been set and written back. -/
structure World.WroteBack (files : FileTree) (w : World ρ) (i : Nat) (v : UserSettings)
    (u : World ρ) : Prop where
  cell : u.settingsCell i = (w.settingsCell i).store v
  media : u.media = (w.media.write (w.contextAccess i).medium settingsKey v.bytes).2
  attended : u.Attended files
  onward : w.Onward u

theorem World.WroteBack.value {v : UserSettings} {u : World ρ} (h : w.WroteBack files i v u) :
    u.settingsOf i = v := congrArg (·.value) h.cell

/-- Settings that nobody holds are written back before anybody else hears of them, whatever the
    medium does. -/
theorem World.Attended.set (h : w.Attended files) (small : i < w.contexts.size)
    (access : w.contextAccess i = a) (free : (w.settingsCell i).isBorrowed = false)
    (v : UserSettings) :
    ∃ u rest, w.WroteBack files i v u ∧ (w.settingsCell i).listed = 0 :: rest ∧ 0 ∉ rest ∧
      ∀ nested, ((contextSettingsSite a i).value.set ((contextSettingsSite a i).call nested)
          v).perform w =
        ((contextSettingsSite a i).value.announce ((contextSettingsSite a i).call nested)
          ((w.settingsCell i).version + 1) v rest).perform u := by
  obtain ⟨keeper, -, -⟩ := h.attended i small
  obtain ⟨rest, listed, once⟩ := keeper.listed
  have store := context_cell_adjust small a (·.store v)
  have admitted : (attending ρ files).Admits ((contextSettingsSite a i).value.committed v) :=
    attending_committed a i v
  obtain ⟨stored, onward⟩ := admitted w h
  obtain ⟨u, took, ran⟩ := stored.turn (j := i) (a := a) (v := v)
    (Nat.lt_of_lt_of_le small onward.size) ((onward.access i small).trans access)
    (congrArg (·.value) store) (some ((w.settingsCell i).version + 1))
  refine ⟨u, rest, ⟨?_, ?_, took.attended, onward.trans took.onward⟩, listed, once,
    fun nested => ?_⟩
  · refine (congrArg (fun contexts => (contexts.getD i .blank).settings.settings.value)
      took.contexts).trans store
  · rw [took.media, access]
    rfl
  · refine (Place.perform_set_listed store (fun _ _ => rfl) free listed keeper.active).trans ?_
    exact Act.perform_bind_of_ok (ran nested)

theorem attending_forget (name : String) :
    (attending ρ files).Admits fun w => { w with subscriptions := w.subscriptions.erase name } :=
  fun _ h => ⟨h.forget name, .of_eq rfl rfl⟩

/-! ## The settings of a context -/

/-- The course on which all contexts stay attended, where context `i` is there with its medium. -/
def attendingAt (ρ : Type) [Inhabited ρ] (files : FileTree) (a : Access) (i : Nat) :
    Course (World ρ) :=
  (attending ρ files).restrict (fun w => i < w.contexts.size ∧ w.contextAccess i = a)
    fun _ _ _ leads ⟨small, access⟩ =>
      ⟨Nat.lt_of_lt_of_le small leads.size, (leads.access i small).trans access⟩

theorem attendingAt_attended (hw : (attendingAt ρ files a i).sound w) :
    (w.contextAt i).Attended w.media := hw.1.attended i hw.2.1

theorem attending_quiescentAt {id : Nat} (other : id ≠ 0) :
    (contextSettingsSite a i).value.QuiescentAt (attending ρ files) id := by
  intro o _ returned
  refine attending_record ?_
  rintro j pass same
  cases same
  exact other (returned pass 0 rfl).symm

theorem attendingAt_quiescentAt {id : Nat} (other : id ≠ 0) :
    (contextSettingsSite a i).value.QuiescentAt (attendingAt ρ files a i) id :=
  fun o ho returned => (attending_quiescentAt other o ho returned).restrict

section

variable {nested nested' : Nested (World ρ) (Step ρ)}
  (hn : Nested.Carried (attending ρ files) (fun _ => True) nested nested')
include hn

theorem attendingAt_servedAt {id : Nat} (other : id ≠ 0) :
    (contextSettingsSite a i).value.ServedAt (attendingAt ρ files a i) id
      ((contextSettingsSite a i).call nested) ((contextSettingsSite a i).call nested') :=
  Listener.Quiet.servedAt_at
    ⟨fun _ _ => (attending_record (by simp [Modest])).restrict,
      fun j k => (attending_adjust a i (fun _ h => h.spend j k) fun _ => ⟨rfl, rfl⟩).restrict⟩
    hn.restrict.act (attendingAt_quiescentAt other) (fun _ _ l _ => l.within_true)
    fun _ hw skip found => absurd rfl (((attendingAt_attended hw).keeper.script id _ other found).2
      skip)

theorem attendingAt_announce (number : Nat) (v : UserSettings) {rest : List Nat} (once : 0 ∉ rest) :
    (attendingAt ρ files a i).Carries
      ((contextSettingsSite a i).value.announce ((contextSettingsSite a i).call nested) number v rest)
      ((contextSettingsSite a i).value.announce ((contextSettingsSite a i).call nested') number v
        rest) := by
  refine Place.announce_carries_at number v (fun id turn => attendingAt_quiescentAt ?_)
    (fun id turn => attendingAt_servedAt hn ?_)
  · exact fun same => once (same ▸ turn)
  · exact fun same => once (same ▸ turn)

theorem attendingAt_set (v : UserSettings) :
    (attendingAt ρ files a i).Carries
      ((contextSettingsSite a i).value.set ((contextSettingsSite a i).call nested) v)
      ((contextSettingsSite a i).value.set ((contextSettingsSite a i).call nested') v) := by
  rintro w ⟨h, small, access⟩
  cases free : (w.settingsCell i).isBorrowed with
  | true =>
    constructor <;> simp only [Place.perform_set_borrowed (p := (contextSettingsSite a i).value) free]
    · exact ⟨h, small, access⟩
    · exact (attendingAt ρ files a i).refl w
  | false =>
    obtain ⟨u, rest, wrote, -, once, ran⟩ := World.Attended.set h small access free v
    have there : i < u.contexts.size ∧ u.contextAccess i = a :=
      ⟨Nat.lt_of_lt_of_le small wrote.onward.size, (wrote.onward.access i small).trans access⟩
    exact (attendingAt_announce hn _ v once u ⟨wrote.attended, there⟩).after (ran nested)
      (ran nested') ⟨wrote.onward, fun _ => there⟩

theorem attendingAt_steady :
    (contextSettingsSite a i).value.Steady (attendingAt ρ files a i)
      (Listener.IsScript fun _ => True) ((contextSettingsSite a i).call nested)
      ((contextSettingsSite a i).call nested') where
  set v := attendingAt_set hn v
  borrowing _ _ := Place.borrowing_carries
    (attending_adjust a i (fun _ h => h.borrow) fun _ => ⟨rfl, rfl⟩).restrict
    (attending_adjust a i (fun _ h => h.release) fun _ => ⟨rfl, rfl⟩).restrict
  subscribe callback isScript := by
    refine Place.subscribe_carries_at
      (attending_adjust a i (fun _ h => h.register isScript) fun _ => ⟨rfl, rfl⟩).restrict
      (fun w hw => attendingAt_quiescentAt ?_) fun w hw => attendingAt_servedAt hn ?_
    · exact (attendingAt_attended hw).keeper.nextId_ne_zero
    · exact (attendingAt_attended hw).keeper.nextId_ne_zero

theorem panels_steady (i : Nat) :
    (contextPanelsSite (ρ := ρ) i).resolved.Steady (attending ρ files) (Listener.Within fun _ => True)
      ((contextPanelsSite i).call nested) ((contextPanelsSite i).call nested') :=
  Listener.steady_of_admits (attending_resolved i)
    (fun _ => attending_record (by simp [Modest])) hn.act (fun _ _ _ l _ => l.within_true)
    fun _ => carries_pure _

end

theorem panels_unwatched (i : Nat) : (contextPanelsSite (ρ := ρ) i).Unwatched (attending ρ files) :=
  ⟨attending_panels i fun _ => rfl, fun _ => attending_record (by simp [Modest])⟩

/-! ## Records -/

/-- The course on which all contexts stay attended, where record `j` has its medium. -/
def attendingRecord (ρ : Type) [Inhabited ρ] (files : FileTree) (a : Access) (j : Nat) :
    Course (World ρ) :=
  (attending ρ files).restrict (fun w => a.medium = .disabled ∨ (w.recordAccess j).medium = a.medium)
    fun _ _ _ leads there => by
      by_cases off : a.medium = .disabled
      · exact .inl off
      · have same := there.resolve_left off
        exact .inr ((leads.records j (same ▸ off)).trans same)

theorem World.Attended.recordWrites (h : w.Attended files)
    (turn : ∀ i, (w.filing i).turn = some (.settings j))
    (there : a.medium = .disabled ∨ (w.recordAccess j).medium = a.medium)
    (shown : a.shownAs = none → a.medium = .disabled) (key : String) (bytes : ByteArray) :
    { a.announce key bytes w with media := (w.media.write a.medium key bytes).2 }.Attended files := by
  obtain ⟨medium, _ | name⟩ := a
  · obtain rfl : medium = .disabled := shown rfl
    exact h.write .disabled key bytes fun _ _ _ => .inr fun shares => shares.1 rfl
  · refine (h.record (e := .happened (.writing key name bytes)) (by simp [Modest])).write medium key
      bytes fun i u filed => ?_
    rw [World.filing_record] at filed
    obtain ⟨apart, -⟩ := Filing.filed_of_spoilIf filed
    rw [turn i] at apart
    by_cases under : key = settingsKey
    · refine .inr fun shares => apart ⟨under, decide_eq_true ?_⟩
      rw [World.mediumOf, there.resolve_left shares.1]
      exact shares
    · exact .inl fun same => under same.symm

theorem attendingRecord_write (hw : (attendingRecord ρ files a j).sound w)
    (turn : ∀ i, (w.filing i).turn = some (.settings j))
    (shown : a.shownAs = none → a.medium = .disabled) (key : String) (bytes : ByteArray) :
    (attendingRecord ρ files a j).CarriesFrom w (a.store.write key bytes)
      (a.store.write key bytes) := by
  obtain ⟨h, there⟩ := hw
  have writes := h.recordWrites turn there shown key bytes
  rcases outcome : w.media.write a.medium key bytes with ⟨r, m⟩
  rw [outcome] at writes
  have wrote := perform_store_write (a := a) (w := w) outcome
  have records : ({ a.announce key bytes w with media := m } : World ρ).records = w.records :=
    records_announce
  have there' : a.medium = .disabled ∨
      (({ a.announce key bytes w with media := m } : World ρ).recordAccess j).medium =
        a.medium := by
    rwa [World.recordAccess, records]
  exact CarriesFrom.after (respond_carries r _ ⟨writes, there'⟩) wrote wrote
    ⟨.of_eq contexts_announce records, fun _ => there'⟩

section

variable {nested nested' : Nested (World ρ) (Step ρ)}
  (hn : Nested.Carried (attending ρ files) (fun _ => True) nested nested')
include hn

variable [Settings.Record ρ]

theorem attendingRecord_served (shown : a.shownAs = none → a.medium = .disabled) :
    (recordSite a j).value.Served (attendingRecord ρ files a j) ((recordSite a j).call nested)
      ((recordSite a j).call nested') := by
  intro id w hw l _ pass v
  have noted : (attendingRecord ρ files a j).sound
      (w.note (.settings j (.value (.called pass id v)))) :=
    ((attending_record (by simp [Modest])).restrict w hw).1
  cases l with
  | script name rules =>
    exact Listener.Quiet.hear ⟨fun _ _ => (attending_record (by simp [Modest])).restrict,
      fun _ _ => (attending_adjust_record a j _).restrict⟩ hn.restrict.act
      (Listener.within_true _) (fun _ same => by cases same) _ noted
  | keeper skip =>
    cases skip with
    | true => exact (attending_adjust_record a j _).restrict.carries _ noted
    | false =>
      exact Settings.Site.writeBack_carriesFrom (s := recordSite a j) noted
        (fun _ => (attending_record (by simp [Modest])).restrict)
        (attendingRecord_write noted (fun _ => congrArg Filing.turn (World.filing_record _))
          shown) v

theorem attendingRecord_steady (shown : a.shownAs = none → a.medium = .disabled) :
    (recordSite a j).value.Steady (attendingRecord ρ files a j) (Listener.Within fun _ => True)
      ((recordSite a j).call nested) ((recordSite a j).call nested') := by
  have adjust (f : Observable ρ (Listener (Step ρ) ρ) → Observable ρ (Listener (Step ρ) ρ)) :
      (attendingRecord ρ files a j).Admits ((recordSite a j).value.adjust f) :=
    (attending_adjust_record a j f).restrict
  have unwatched : (recordSite a j).value.Unwatched (attendingRecord ρ files a j) :=
    ⟨fun _ => adjust _, fun _ => adjust _, fun _ => adjust _,
      fun _ => (attending_record (by simp [Modest])).restrict⟩
  exact unwatched.steady (attendingRecord_served hn shown) (fun _ _ => adjust _)
    fun _ _ => Place.borrowing_carries (adjust _) (adjust _)

/-- A record that was loaded has its medium, so that it is kept there. -/
theorem loadRecord_carries (medium : Medium) (storage key : String) (default : ρ) :
    (attending ρ files).Carries (loadRecord nested ⟨medium, some storage⟩ key default)
      (loadRecord nested' ⟨medium, some storage⟩ key default) := by
  refine Settings.load_carries_of_keeps
    (store_read_carries (fun _ _ => attending_record (by simp [Modest])) _ key)
    (fun _ => attending_record (by simp [Modest])) fun v skip w h => ?_
  have there : (attendingRecord ρ files ⟨medium, some storage⟩ w.records.size).sound
      { w with records := w.records.push ⟨.new key default v, medium, some storage⟩ } := by
    refine ⟨h.pushRecord (by simp), .inr ?_⟩
    exact congrArg (fun k : Kept (Step ρ) ρ => k.access.medium) (getD_push_self ..)
  have kept := (Settings.Site.keep_carries (attendingRecord_steady hn (by simp)) skip _
    there).unrestrict
  exact (kept.bind fun _ _ _ hv => .pure hv w.records.size).after rfl rfl (.pushRecord w _)

end

/-! ## New contexts -/

theorem World.Gained.of_eq {u : World ρ} (h : w'.Gained files u) (contexts : w'.contexts = w.contexts)
    (records : w'.records = w.records) (names : w'.contextNames = w.contextNames) :
    w.Gained files u where
  onward := .trans (.of_eq contexts records) h.onward
  size := contexts ▸ h.size
  names := h.names.trans names
  attended := h.attended
  filed := contexts ▸ h.filed

theorem World.Gained.named {u : World ρ} (h : w.Gained files u) (name : String) :
    ({ u with contextNames := u.contextNames.insert name w.contexts.size }.settle).Attended files :=
  (h.attended.name (h.size ▸ Nat.lt_succ_self _) h.filed name).settle

omit [Inhabited ρ] in
theorem perform_readRecord (a : Access) (key : String) (default : UserSettings) (w : World ρ) :
    ∃ e u, (u = w ∨ ∃ name, u = w.note (.reading key name)) ∧
      (Settings.readRecord a.store key default).perform w = (e, u) := by
  obtain ⟨r, u, silent, read⟩ : ∃ r u, (u = w ∨ ∃ name, u = w.note (.reading key name)) ∧
      (a.store.read key).perform w = (respond r).perform u := by
    obtain ⟨medium, _ | name⟩ := a
    · exact ⟨w.media.read medium key, w, .inl rfl, rfl⟩
    · exact ⟨w.media.read medium key, _, .inr ⟨name, rfl⟩, rfl⟩
  rw [Settings.readRecord, Act.perform_bind, read]
  rcases r with (_ | bytes) | e | _
  all_goals exact ⟨_, u, silent, rfl⟩

/-- Whatever its medium answers, a new context is attended.  There is none if the medium panics. -/
theorem World.Attended.makeContext (h : w.Attended files) (has : w.media.Has a.medium) :
    ∃ e u, (∀ nested, (makeContext nested a).perform w = (e, u)) ∧ u.Attended files ∧ w.Onward u ∧
      ∀ i, e = .ok i → i = w.contexts.size ∧ w.Gained files u := by
  obtain ⟨e, v, silent, read⟩ := perform_readRecord a settingsKey .initial w
  obtain ⟨attended, contexts, records, names, media⟩ : v.Attended files ∧ v.contexts = w.contexts ∧
      v.records = w.records ∧ v.contextNames = w.contextNames ∧ v.media = w.media := by
    rcases silent with rfl | ⟨name, rfl⟩
    · exact ⟨h, rfl, rfl, rfl, rfl⟩
    · exact ⟨h.record (by simp [Modest]), rfl, rfl, rfl, rfl⟩
  have has : v.media.Has a.medium := media ▸ has
  have ends {u : World ρ} (gained : v.Gained files u) : u.Attended files ∧ w.Onward u ∧
      ∀ i, Except.ok v.contexts.size = (.ok i : Except Interrupt Nat) →
        i = w.contexts.size ∧ w.Gained files u := by
    have gained : w.Gained files u := gained.of_eq contexts records names
    exact ⟨gained.attended, gained.onward, fun i same => ⟨by cases same; rw [contexts], gained⟩⟩
  rcases e with i | e | u
  · refine ⟨.error i, v, fun nested => ?_, attended, .of_eq contexts records,
      fun _ same => by cases same⟩
    rw [Session.makeContext, Settings.load, Act.perform_bind, read]
  -- The notice tells that the default was taken.
  · have told := attended.record (e := .happened (.notice (.fellBackToDefault settingsKey e)))
      (by simp [Modest])
    obtain ⟨u, gained, ran⟩ := told.keep has .initial true
      fun _ => congrArg Filing.fellBack (World.filing_record _)
    refine ⟨.ok v.contexts.size, u, fun nested => ?_, ends (gained.of_eq rfl rfl rfl)⟩
    refine (Settings.perform_load read).trans ?_
    show ((contextSettingsSite a v.contexts.size).keep nested true >>= fun _ =>
      pure v.contexts.size).perform { v.note (.notice (.fellBackToDefault settingsKey e)) with
        contexts := v.contexts.push (.unkept a .initial) } = _
    exact Act.perform_bind_of_ok (ran nested)
  · obtain ⟨u', gained, ran⟩ := attended.keep has u false (by simp)
    refine ⟨.ok v.contexts.size, u', fun nested => ?_, ends gained⟩
    refine (Settings.perform_load read).trans ?_
    show ((contextSettingsSite a v.contexts.size).keep nested false >>= fun _ =>
      pure v.contexts.size).perform { v with contexts := v.contexts.push (.unkept a u) } = _
    exact Act.perform_bind_of_ok (ran nested)

theorem World.Attended.openDatabase (h : w.Attended files) {path : String}
    (told : w.Engaged files (Location.resolve files.cwd path)) :
    { w with media := (w.media.openDatabase path).2 }.Attended files := by
  have told : w.Engaged files (Location.resolve w.media.files.cwd path) := by
    rwa [h.engages.cwd]
  refine h.remedy (Media.openDatabase_has path).1 ?_ fun i u retains _ holds => ?_
  · exact (w.media.engages_openDatabase path).mono fun l here => here ▸ told
  · exact Media.holding_openDatabase holds fun l uses => retains.1 l uses _ told

/-- A session makes its first context on its database, or else without a medium. -/
theorem World.Attended.bootstrap (h : w.Attended files) {config : Config}
    (told : w.Engaged files (Location.resolve files.cwd config.settingsPath)) :
    ∃ a u, u.Attended files ∧ u.media.Has a.medium ∧ w.Onward u ∧
      ∀ nested, (bootstrap nested config).perform w = (Session.makeContext nested a).perform u := by
  have remedied := h.openDatabase told
  have has := (Media.openDatabase_has (m := w.media) config.settingsPath).2
  rcases opened : w.media.openDatabase config.settingsPath with ⟨e | medium, m⟩
  all_goals rw [opened] at remedied has
  · refine ⟨⟨.disabled, none⟩, _, remedied.record
      (e := .happened (.notice (.storageNotOpened config.settingsPath e))) (by simp [Modest]),
      trivial, .of_eq rfl rfl, fun nested => ?_⟩
    simp only [Session.bootstrap, Act.perform_bind, Act.perform_view, opened]
    rfl
  · refine ⟨⟨medium, none⟩, _, remedied, has medium rfl, .of_eq rfl rfl, fun nested => ?_⟩
    simp only [Session.bootstrap, Act.perform_bind, Act.perform_view, opened]
    rfl

/-! ## Media and files -/

theorem openMedium_attends (h : w.Attended files) {opening : Opening}
    (told : ∀ path, opening = .database path →
      w.Engaged files (Location.resolve files.cwd path)) :
    (attending ρ files).CarriesFrom w (openMedium opening) (openMedium opening) := by
  cases opening with
  | memory | privateDatabase =>
    refine CarriesFrom.look (CarriesFrom.bind (attending_modified ?_ (.of_eq rfl rfl))
      fun _ _ _ hv => .pure hv _)
    exact h.remedy (by simp) (.refl _) fun _ _ _ _ holds => Media.holding_newRegion holds _
  | switched =>
    refine CarriesFrom.look (CarriesFrom.bind (attending_modified ?_ (.of_eq rfl rfl))
      fun _ _ _ hv => .pure hv _)
    exact h.remedy (by simp) (.refl _) fun _ _ _ _ holds => Media.holding_newSwitched holds _ _
  | database path =>
    refine CarriesFrom.look (CarriesFrom.bind (attending_modified ?_ (.of_eq rfl rfl))
      fun _ _ _ hv => .pure hv _)
    exact h.openDatabase (told path rfl)
  | share name => exact CarriesFrom.look (CarriesFrom.pure h _)
  | disabled => exact .pure h _

theorem mediumStep_attends (name : String) (step : MediumStep) (w : World ρ) (h : w.Attended files) :
    (attending ρ files).CarriesFrom (w.record (.began (.medium name step))) (step.perform name)
      (step.perform name) := by
  have began : (w.record (.began (.medium name step))).Attended files := h.record (by simp [Modest])
  cases step with
  | openAs opening =>
    have told (path : String) (same : opening = .database path) :
        (w.record (.began (.medium name (.openAs opening)))).Engaged files
          (Location.resolve files.cwd path) := World.engaged_record (by rw [same]; rfl)
    refine (openMedium_attends began told).bind fun result v ran hv => ?_
    rcases result with _ | _ | medium
    · exact .pure hv _
    · exact .pure hv _
    · have opened := World.Attended.open_ hv name (openMedium_has began.media ran)
      refine CarriesFrom.bind (attending_modified ?_ ?_) fun _ u _ hu => .pure hu _
      · exact opened.settle
      · exact .of_eq rfl rfl
  | close =>
    refine CarriesFrom.bind (attending_modified ?_ ?_) fun _ u _ hu => .pure hu _
    · exact (began.close name).settle
    · exact .of_eq rfl rfl
  | turn reads writes =>
    refine turn_carries (fun medium w h => ⟨World.Attended.remedy h ?_ ?_ ?_, ?_⟩) _ began
    · exact Nat.le_of_eq (Media.size_regions_turn reads writes).symm
    · exact .of_eq (congrArg _ (Media.files_turn ..)) (congrArg _ (Media.files_turn ..))
    · intro i u _ _ holds
      rw [Media.holding_turn, holds]
    · exact .of_eq rfl rfl
  | read key => exact read_carries name key _ began
  | write key bytes =>
    refine CarriesFrom.look ?_
    cases (w.record (.began (.medium name (.write key bytes)))).storages.get? name with
    | none => exact .pure began _
    | some medium =>
      -- The step has been told before it writes, so that what it overwrites no longer counts as
      -- filed.
      have wrote := began.write medium key bytes fun i u filed => by
        rw [World.filing_record] at filed
        exact .inl (Ne.symm (Filing.filed_of_spoilIf filed).1)
      refine CarriesFrom.bind (CarriesFrom.look ((attending_modified wrote (.of_eq rfl rfl)).bind
        fun _ v _ hv => respond_carries _ v hv)) fun r v _ hv => ?_
      cases r <;> exact .pure hv _

theorem setFiles_attends (h : w.Attended files) {t : FileTree}
    (engages : FileTree.Engages (w.Engaged files) w.media.files t)
    (stays : ∀ i u, w.Retains files i → (w.filing i).filed = some u →
      w.media.holding (w.contextAccess i).medium settingsKey = some (.bytes u.bytes) →
      { w.media with files := t }.holding (w.contextAccess i).medium settingsKey =
        some (.bytes u.bytes)) :
    (attending ρ files).CarriesFrom w (setFiles t) (setFiles t) :=
  .modify (h.remedy (m := { w.media with files := t }) (Nat.le_refl _) engages stays)
    (.of_eq rfl rfl)

theorem fileStep_attends (step : FileStep) (w : World ρ) (h : w.Attended files) :
    (attending ρ files).CarriesFrom (w.record (.began (.file step))) step.perform step.perform := by
  have began : (w.record (.began (.file step))).Attended files := h.record (by simp [Modest])
  -- All that is done to files spoils what was written, apart from making directories.
  have spoiling {t : FileTree} (engages : FileTree.Engages
      ((w.record (.began (.file step))).Engaged files) w.media.files t) (spoils : ∀ i,
        ((w.record (.began (.file step))).filing i).filed = none) (reply : Reply ρ) :
      (attending ρ files).CarriesFrom (w.record (.began (.file step)))
        (do setFiles t; return reply) (do setFiles t; return reply) :=
    (setFiles_attends began engages fun i u _ filed => by
      rw [spoils i] at filed
      cases filed).bind
      fun _ _ _ hv => .pure hv _
  have altering (path : String) (opens : opened? (.began (.file step) : Line ρ) = some path)
      (f : Node → Node) : FileTree.Engages ((w.record (.began (.file step))).Engaged files)
        w.media.files (w.media.files.alter path f) := by
    have alters := w.media.files.engages_alter path f
    rw [h.engages.cwd] at alters
    exact alters.mono fun l here => here ▸ World.engaged_record opens
  cases step with
  | makeDirectories path =>
    refine CarriesFrom.look (CarriesFrom.bind ?_ fun _ _ _ hv => .pure hv _)
    refine setFiles_attends began (FileTree.engages_makeDirectories _ path) fun _ _ _ _ holds => ?_
    exact Media.holding_of_lasts holds fun l table _ found =>
      FileTree.lasts_makeDirectories found path
  | write path content =>
    refine CarriesFrom.look ?_
    cases wrote : (w.record (.began (.file (.write path content)))).media.files.writeFile path
      content with
    | some t =>
      refine spoiling (FileTree.engages_writeFile wrote) (fun i => ?_) _
      rw [World.filing_record]
      rfl
    | none => exact .pure began _
  | status path => exact (carries_view _ _ began).map _
  | putText path key text =>
    refine CarriesFrom.look (spoiling (altering path rfl _) (fun i => ?_) _)
    rw [World.filing_record]
    rfl
  | makeForeign path =>
    refine CarriesFrom.look (spoiling (altering path rfl _) (fun i => ?_) _)
    rw [World.filing_record]
    rfl

/-! ## Steps -/

theorem attending_enrol {source : Source} (other : ∀ i, source ≠ .contextSettings i)
    (name : String) (id : Nat) : (attending ρ files).Admits (World.enrol source name id) :=
  fun _ h => ⟨h.enrol name fun i same => absurd same (other i), .of_eq rfl rfl⟩

theorem askSubscription_attends (name : String) (request : Subscription.Request) :
    (attending ρ files).Carries (askSubscription name request) (askSubscription name request) := by
  refine Carries.look fun w h => ?_
  rcases found : w.subscriptions.get? name with _ | ⟨i | i | i, id⟩
  · exact .pure h _
  · exact Subscription.Request.perform_carries_of_admits (fun _ => attending_adjust_record _ i _)
      (fun _ => attending_record (by simp [Modest])) (attending_forget name) id request w h
  -- The subscriber that writes back has no handle, so it is somebody else.
  · obtain ⟨-, other⟩ := World.Attended.handles h name i id found
    refine Subscription.Request.perform_carries (Place.unsubscribe_carries_at ?_ ?_ ?_)
      (attending_forget name) request w h
    · exact attending_quiescentAt other
    · exact attending_adjust _ i (fun _ h => h.silence other) fun _ => ⟨rfl, rfl⟩
    · exact attending_adjust _ i (fun _ h => h.delist other) fun _ => ⟨rfl, rfl⟩
  · exact Subscription.Request.perform_carries_of_admits (attending_resolved i)
      (fun _ => attending_record (by simp [Modest])) (attending_forget name) id request w h

section

variable {nested nested' : Nested (World ρ) (Step ρ)}

theorem makeContext_attends (h : w.Attended files) (has : w.media.Has a.medium) {β : Type}
    {f f' : Nat → Act (World ρ) β}
    (k : ∀ u, w.Gained files u →
      (attending ρ files).CarriesFrom u (f w.contexts.size) (f' w.contexts.size)) :
    (attending ρ files).CarriesFrom w (makeContext nested a >>= f)
      (makeContext nested' a >>= f') := by
  obtain ⟨e, u, ran, attended, onward, makes⟩ := h.makeContext has
  have made : (attending ρ files).CarriesFrom w (makeContext nested a) (makeContext nested' a) := by
    constructor <;> rw [ran nested]
    · exact ran nested'
    · exact attended
    · exact onward
  refine made.bind fun i v ended _ => ?_
  rw [ran nested] at ended
  obtain ⟨same, rfl⟩ := Prod.mk.inj ended
  obtain ⟨rfl, gained⟩ := makes i same
  exact k _ gained

theorem bootstrap_attends (h : w.Attended files) {config : Config}
    (told : w.Engaged files (Location.resolve files.cwd config.settingsPath)) {β : Type}
    {f f' : Nat → Act (World ρ) β}
    (k : ∀ w u : World ρ, w.Gained files u →
      (attending ρ files).CarriesFrom u (f w.contexts.size) (f' w.contexts.size)) :
    (attending ρ files).CarriesFrom w (bootstrap nested config >>= f)
      (bootstrap nested' config >>= f') := by
  obtain ⟨a, u, attended, has, onward, made⟩ := h.bootstrap told
  have after (nested : Nested (World ρ) (Step ρ)) (f : Nat → Act (World ρ) β) :
      (bootstrap nested config >>= f).perform w = (makeContext nested a >>= f).perform u := by
    rw [Act.perform_bind, Act.perform_bind, made]
  exact (makeContext_attends attended has (k u)).after (after nested f) (after nested' f') onward

theorem nameContext_attends (name : String) (w u : World ρ) (gained : w.Gained files u) :
    (attending ρ files).CarriesFrom u
      (do
        modify fun u => World.settle
          { u with contextNames := u.contextNames.insert name w.contexts.size }
        return (.done : Reply ρ))
      (do
        modify fun u => World.settle
          { u with contextNames := u.contextNames.insert name w.contexts.size }
        return .done) := by
  refine CarriesFrom.bind (attending_modified ?_ ?_) fun _ _ _ hu => .pure hu _
  · exact gained.named name
  · exact .of_eq rfl rfl

variable [Settings.Record ρ] [Text.Describe ρ]

theorem context_attends (name storage : String) :
    (attending ρ files).Carries (perform nested (.context name storage))
      (perform nested' (.context name storage)) := by
  refine Carries.look fun w h => ?_
  cases found : w.storages.get? storage with
  | none => exact .pure h _
  | some medium =>
    exact makeContext_attends h (World.Attended.media h storage medium found)
      (nameContext_attends name w)

variable (hn : Nested.Carried (attending ρ files) (fun _ => True) nested nested')
include hn

theorem load_attends (name storage key : String) (default : ρ) :
    (attending ρ files).Carries (perform nested (.load name storage key default))
      (perform nested' (.load name storage key default)) := by
  refine withMedium_carries (fun medium => (loadRecord_carries hn medium storage key default).bind
    fun i u hu => ?_) storage
  refine CarriesFrom.bind (attending_modified ?_ ?_) fun _ v _ hv => (carries_view _ v hv).map _
  · exact (World.Attended.recordNames hu _).settle
  · exact .of_eq rfl rfl

theorem settings_attends (name : String) (action : Settings.Action (Step ρ) ρ) :
    (attending ρ files).Carries (perform nested (.settings name action))
      (perform nested' (.settings name action)) := by
  refine Carries.look fun w h => ?_
  cases w.recordNames.get? name with
  | none => exact .pure h _
  | some j =>
    have steady := (attendingRecord_steady (j := j) hn (World.Attended.shown h j)).mono
      fun _ (isScript : Listener.IsScript (fun _ => True) _) => isScript.1
    refine CarriesFrom.look (CarriesFrom.map (CarriesFrom.unrestrict (Settings.Action.perform_carries
      hn.restrict steady (fun name' u _ _ id v _ hv => ?_) action (fun _ _ => trivial) w
      ⟨h, .inr rfl⟩)) _)
    exact (attending_enrol (by simp) name' id).restrict v hv

theorem contextSettings_attends (name : String) (action : Settings.Action (Step ρ) UserSettings) :
    (attending ρ files).Carries (perform nested (.contextSettings name action))
      (perform nested' (.contextSettings name action)) := by
  refine Carries.look fun w h => ?_
  cases found : w.contextNames.get? name with
  | none => exact .pure h _
  | some i =>
    refine CarriesFrom.look (CarriesFrom.map (CarriesFrom.unrestrict (Settings.Action.perform_carries
      hn.restrict (attendingAt_steady hn) (fun name' u hu rules id v ran hv => ?_) action
      (fun _ _ => trivial) w ⟨h, World.Attended.names h name i found, rfl⟩)) _)
    -- A new subscriber is not the first one.
    have other : id ≠ 0 := by
      rw [Place.nextId_of_subscribe ran]
      exact (attendingAt_attended hu).keeper.nextId_ne_zero
    obtain ⟨attended, small, access⟩ := hv
    have enrolled : (v.enrol (.contextSettings i) name' id).Attended files :=
      attended.enrol name' fun k same => by cases same; exact ⟨small, other⟩
    exact ⟨⟨enrolled, small, access⟩, .of_eq rfl rfl, fun there => there⟩

theorem contextPanels_attends (name : String) (action : Registry.Action (Step ρ) Panel) :
    (attending ρ files).Carries (perform nested (.contextPanels name action))
      (perform nested' (.contextPanels name action)) := by
  refine Loose.withContext_carries (fun i w h => CarriesFrom.map (Registry.Action.perform_carries
    (panels_unwatched i) hn (fun _ _ _ _ _ _ _ => trivial)
    ((panels_steady hn i).mono fun _ h => h.1) (fun name' u _ _ id v _ hv => ?_) action
    (fun _ _ => trivial) w h) _) name
  exact attending_enrol (by simp) name' id v hv

theorem execute_attends (name : String) (command : Command) (room : Option Nat) :
    (attending ρ files).Carries (perform nested (.execute name command room))
      (perform nested' (.execute name command room)) := by
  rw [perform_execute, perform_execute]
  refine Carries.look fun w h => ?_
  cases found : w.contextNames.get? name with
  | none => exact .pure h _
  | some i =>
    have builds : (contextPanelsSite i).Builds (attending ρ files) nested nested' :=
      (panels_unwatched i).builds hn fun _ _ _ _ _ _ _ => trivial
    have addKind (kind : PanelKind) := (panels_unwatched i).addKind builds (panels_steady hn i).set kind
    refine CarriesFrom.look (CarriesFrom.bind (CarriesFrom.unrestrict (Command.execute_carries
      (fun _ => (attending_record (by simp [Modest])).restrict) (fun kind => (addKind kind).restrict)
      (attendingAt_set hn) command w ⟨h, World.Attended.names h name i found, rfl⟩))
      fun _ v _ hv => .pure hv _)

end

variable [Settings.Record ρ] [Text.Describe ρ]

/-- Whatever a step does, contexts stay attended. -/
theorem pursues_attending : (language ρ).Pursues (attending ρ files) fun _ => True where
  cut w _ := .refl w
  began s := attending_record (by simp [Modest])
  perform exec exec' s k _ w h := by
    have hn := Language.nested_carried (L := language ρ)
      (fun _ _ _ => attending_record (by simp [Modest]))
      (fun _ _ => attending_record (by simp [Modest])) k
    have began : (w.record (.began s)).Attended files := World.Attended.record h (by simp [Modest])
    -- Steps on media and files are followed from before their first line, the others from after it.
    cases s with
    | subscription name request => exact ((askSubscription_attends name request).map _) _ began
    | panic => exact .panic began
    | file step => exact fileStep_attends step w h
    | medium name step => exact mediumStep_attends name step w h
    | load name storage key default => exact load_attends hn name storage key default _ began
    | settings name action => exact settings_attends hn name action _ began
    | context name storage => exact context_attends name storage _ began
    | bootstrap name config =>
      exact bootstrap_attends began (World.engaged_record rfl) (nameContext_attends name)
    | drop name =>
      have erased := (began.recordNames ((w.record (.began (.drop name))).recordNames.erase
        name)).erase name
      refine CarriesFrom.bind (attending_modified ?_ ?_) fun _ _ _ hu => .pure hu _
      · exact erased.settle
      · exact .of_eq rfl rfl
    | contextSettings name action => exact contextSettings_attends hn name action _ began
    | contextPanels name action => exact contextPanels_attends hn name action _ began
    | describe name pretty =>
      exact Loose.withContext_carries (fun i => Carries.look fun w hw => .pure hw _) name _ began
    | execute name command room => exact execute_attends hn name command room _ began

theorem nested_attending (budget : Nat) :
    Nested.Carried (attending ρ files) (fun _ => True) ((language ρ).nested ((language ρ).exec budget))
      ((language ρ).nested (((language ρ).guarded fun _ => True).exec budget)) :=
  Language.nested_carried (fun _ _ _ => attending_record (by simp [Modest]))
    (fun _ _ => attending_record (by simp [Modest]))
    (pursues_attending.exec (fun _ _ => trivial) budget)

end LiveState.Session
