import LiveState.Proofs.Observable.Alone
import LiveState.Proofs.Session.Course
import LiveState.Proofs.Settings.RoundTrip
import LiveState.Proofs.Storage.Reopening

/-! # Contexts that keep their settings in a database

What the commands do in the one context of a session, as long as its database can be read and
changed and nobody else listens: every change of the settings is in the database before the next
thing is done.
-/

namespace LiveState.Session

variable {ρ : Type}

/-- Two contexts are the same apart from the values that they hold. -/
structure Context.Alike {σ : Type} (c c' : Context σ) : Prop where
  access : c'.settings.access = c.settings.access
  key : c'.settings.settings.key = c.settings.settings.key
  default : c'.settings.settings.default = c.settings.settings.default
  subscribers : c'.panels.resolved.subscribers.size = c.panels.resolved.subscribers.size
  catalog : c'.panels.catalog = c.panels.catalog

/-- The first context is there, on the database at the end of a path.  Nobody listens to its
    panels. -/
structure World.Houses (w : World ρ) (path : String) (l : Location)
    (table : OrderedMap String Stored) : Prop where
  files : w.media.files.Attached path l table
  small : 0 < w.contexts.size
  access : w.contextAccess 0 = ⟨.database l, none⟩
  key : (w.contexts.getD 0 .blank).settings.settings.key = settingsKey
  default : (w.contexts.getD 0 .blank).settings.settings.default = .initial
  bare : (w.contexts.getD 0 .blank).panels.resolved.subscribers.size = 0
  catalog : (w.contexts.getD 0 .blank).panels.catalog.Within fun _ => False

/-- The first context keeps these settings. -/
structure World.Maintains (w : World ρ) (path : String) (l : Location)
    (table : OrderedMap String Stored) (u : UserSettings) : Prop
    extends w.Houses path l table where
  value : (w.contexts.getD 0 .blank).settings.settings.value.KeptAlone u

/-- The world after a table has been written. -/
def World.stored (w : World ρ) (l : Location) (table : OrderedMap String Stored) : World ρ :=
  { w with media := { w.media with files := w.media.files.setTable l table } }

variable {w : World ρ} {path : String} {l : Location} {table : OrderedMap String Stored}
  {u v : UserSettings} {stored : Option ByteArray} {bytes : ByteArray} {key : String}

/-! ## What leaves a context where it is -/

namespace World.Houses

theorem record (h : w.Houses path l table) (e : Event (Step ρ) (Reply ρ) (Incident ρ)) :
    (w.record e).Houses path l table :=
  ⟨h.files, h.small, h.access, h.key, h.default, h.bare, h.catalog⟩

theorem write (h : w.Houses path l table) (table' : OrderedMap String Stored) :
    (w.stored l table').Houses path l table' :=
  ⟨h.files.setTable table', h.small, h.access, h.key, h.default, h.bare, h.catalog⟩

theorem modify (h : w.Houses path l table) {f : Context (Step ρ) → Context (Step ρ)}
    (hf : ∀ c : Context (Step ρ), c.Alike (f c)) :
    { w with contexts := w.contexts.modify 0 f }.Houses path l table := by
  have alike : (w.contexts.getD 0 .blank).Alike ((w.contexts.modify 0 f).getD 0 .blank) := by
    rw [getD_modify h.small]
    exact hf _
  constructor
  · exact h.files
  · exact Nat.lt_of_lt_of_eq h.small (Array.size_modify ..).symm
  · exact alike.access.trans h.access
  · exact alike.key.trans h.key
  · exact alike.default.trans h.default
  · exact alike.subscribers.trans h.bare
  · exact alike.catalog ▸ h.catalog

theorem adjust (h : w.Houses path l table) (a : Access)
    (f : Observable UserSettings (Listener (Step ρ) UserSettings) →
      Observable UserSettings (Listener (Step ρ) UserSettings)) :
    ((contextSettingsSite a 0).value.adjust f w).Houses path l table :=
  h.modify fun _ => ⟨rfl, rfl, rfl, rfl, rfl⟩

theorem cell_adjust (h : w.Houses path l table) (a : Access)
    (f : Observable UserSettings (Listener (Step ρ) UserSettings) →
      Observable UserSettings (Listener (Step ρ) UserSettings)) :
    (contextSettingsSite a 0).value.cell ((contextSettingsSite a 0).value.adjust f w) =
      f ((contextSettingsSite a 0).value.cell w) :=
  context_cell_adjust h.small a f

end World.Houses

namespace World.Maintains

theorem record (h : w.Maintains path l table u) (e : Event (Step ρ) (Reply ρ) (Incident ρ)) :
    (w.record e).Maintains path l table u := ⟨h.toHouses.record e, h.value⟩

theorem write (h : w.Maintains path l table u) (table' : OrderedMap String Stored) :
    (w.stored l table').Maintains path l table' u := ⟨h.toHouses.write table', h.value⟩

theorem adjust (h : w.Houses path l table) (a : Access)
    {f : Observable UserSettings (Listener (Step ρ) UserSettings) →
      Observable UserSettings (Listener (Step ρ) UserSettings)}
    (hf : (f ((contextSettingsSite a 0).value.cell w)).KeptAlone v) :
    ((contextSettingsSite a 0).value.adjust f w).Maintains path l table v where
  toHouses := h.adjust a f
  value := by
    show ((contextSettingsSite a 0).value.cell _).KeptAlone v
    rw [h.cell_adjust]
    exact hf

end World.Maintains

/-! ## Reading and writing the database -/

theorem read_yields (h : w.media.files.InUse l table) (has : table.get? key = stored.map .bytes) :
    ((Access.mk (.database l) none).store.read key : Act (World ρ) _).Yields w
      fun r w' => r = .ok stored ∧ w' = w := by
  refine .look ?_
  cases stored with
  | none =>
    simp only [Media.read, h.table?, has]
    exact .pure ⟨rfl, rfl⟩
  | some bytes =>
    simp only [Media.read, h.table?, has]
    exact .pure ⟨rfl, rfl⟩

theorem write_yields (h : w.media.files.InUse l table) (key : String) (bytes : ByteArray) :
    ((Access.mk (.database l) none).store.write key bytes : Act (World ρ) _).Yields w
      fun r w' => r = .ok () ∧ w' = w.stored l (table.insert key (.bytes bytes)) := by
  refine .look ?_
  simp only [Media.write, h.table?, FileTree.isReadOnly, h.index]
  exact .bind (.change (.pure ⟨rfl, rfl⟩))

variable {nested : Nested (World ρ) (Step ρ)}

theorem writeBack_yields (h : w.Houses path l table) (v : UserSettings) :
    ((contextSettingsSite ⟨.database l, none⟩ 0).writeBack v : Act (World ρ) Unit).Yields w
      fun _ w' => w' = w.stored l (table.insert settingsKey (.bytes v.bytes)) := by
  refine .look ?_
  have key : ((contextSettingsSite (ρ := ρ) ⟨.database l, none⟩ 0).settings w).key = settingsKey :=
    h.key
  simp only [UserSettings.encode_eq, key]
  refine .bind ((write_yields h.files.toInUse settingsKey v.bytes).mono fun r w' => ?_)
  rintro ⟨rfl, rfl⟩
  exact .pure rfl

/-- The turn of the subscriber that writes back: after it, what is in memory is in the database. -/
theorem deliver_yields (h : w.Maintains path l table v) (pass : Option Nat) :
    ((contextSettingsSite ⟨.database l, none⟩ 0).value.deliver
        ((contextSettingsSite ⟨.database l, none⟩ 0).call nested) pass 0 v).Yields w
      fun _ w' => w'.Maintains path l (table.insert settingsKey (.bytes v.bytes)) v := by
  refine Place.deliver_yields h.value.keeper ?_
  -- The call and the return are noted, and in between the database is written.
  have called := h.record (.happened (.contextSettings 0 (.value (.called pass 0 v))))
  refine (writeBack_yields called.toHouses v).mono fun _ w' wrote => ?_
  subst wrote
  exact (called.write _).record _

theorem set_yields (h : w.Maintains path l table u) (v : UserSettings) :
    ((contextSettingsSite ⟨.database l, none⟩ 0).value.set
        ((contextSettingsSite ⟨.database l, none⟩ 0).call nested) v).Yields w
      fun _ w' => w'.Maintains path l (table.insert settingsKey (.bytes v.bytes)) v := by
  refine Place.set_yields h.value (h.cell_adjust _ _) (fun _ _ => rfl) ?_
  refine deliver_yields (World.Maintains.record (World.Maintains.adjust h.toHouses _ ?_) _) _
  exact h.value.store v

/-! ## Starting -/

theorem readRecord_yields (h : w.media.files.InUse l table)
    (has : table.get? key = stored.map .bytes) :
    (Settings.readRecord (Access.mk (.database l) none).store key UserSettings.initial :
        Act (World ρ) _).Yields w
      fun r w' => r = UserSettings.read stored ∧ w' = w := by
  refine .bind ((read_yields h has).mono fun r w' => ?_)
  rintro ⟨rfl, rfl⟩
  cases stored with
  | none => exact .pure ⟨rfl, rfl⟩
  | some bytes => exact .pure ⟨rfl, rfl⟩

section Keep

variable {a : Access}

theorem enlisted_houses (h : w.Houses path l table)
    (k : Listener (Step ρ) UserSettings) :
    ((contextSettingsSite a 0).value.enlisted k w).Houses path l table :=
  (h.adjust a _).record _

theorem cell_enlisted_new (h : w.Houses path l table)
    (fresh : (w.contexts.getD 0 .blank).settings.settings.value = .new v)
    (k : Listener (Step ρ) UserSettings) :
    (contextSettingsSite a 0).value.cell ((contextSettingsSite a 0).value.enlisted k w) =
      (Observable.new v).register k := by
  have cell : (contextSettingsSite a 0).value.cell w = .new v := fresh
  rw [← cell]
  exact h.cell_adjust a (·.register k)

end Keep

theorem keep_yields (h : w.Houses path l table)
    (fresh : (w.contexts.getD 0 .blank).settings.settings.value = .new v) :
    ((contextSettingsSite ⟨.database l, none⟩ 0).keep nested false).Yields w
      fun _ w' => w'.Maintains path l (table.insert settingsKey (.bytes v.bytes)) v := by
  have cell : (contextSettingsSite ⟨.database l, none⟩ 0).value.cell w = .new v := fresh
  refine .bind (Place.subscribe_yields (h.cell_adjust _ _) (fun _ _ => rfl) (by rw [cell]; rfl) ?_)
  rw [cell]
  refine (deliver_yields ⟨enlisted_houses h _, ?_⟩ none).mono fun _ _ kept => .pure kept
  show ((contextSettingsSite ⟨.database l, none⟩ 0).value.cell _).KeptAlone v
  rw [cell_enlisted_new h fresh]
  exact .register v

/-- After a fallback nothing is written. -/
theorem keep_skipping_yields (h : w.Houses path l table)
    (fresh : (w.contexts.getD 0 .blank).settings.settings.value = .new v) :
    ((contextSettingsSite ⟨.database l, none⟩ 0).keep nested true).Yields w
      fun _ w' => w'.Maintains path l table v := by
  have cell : (contextSettingsSite ⟨.database l, none⟩ 0).value.cell w = .new v := fresh
  have enlisted := cell_enlisted_new (a := ⟨.database l, none⟩) h fresh (.keeper true)
  have skipped : (((contextSettingsSite ⟨.database l, none⟩ 0).value.cell
      ((contextSettingsSite ⟨.database l, none⟩ 0).value.enlisted (.keeper true)
        w)).adjustCallback 0 fun _ => .keeper false).KeptAlone v := by
    rw [enlisted]
    exact .skipped v
  refine .bind (Place.subscribe_yields (h.cell_adjust _ _) (fun _ _ => rfl) (by rw [cell]; rfl) ?_)
  rw [cell]
  refine Place.deliver_yields (congrArg (Observable.callback? · 0) enlisted) ?_
  refine .change (.pure ?_)
  exact .record (.adjust ((enlisted_houses h _).record _) _ skipped) _

/-- A context on a database, before its settings are kept. -/
def Context.fresh {σ : Type} (l : Location) (v : UserSettings) : Context σ :=
  ⟨.new .panels, .new settingsKey .initial v, .database l, none⟩

theorem houses_push (files : w.media.files.Attached path l table) (first : w.contexts = #[])
    (v : UserSettings) :
    { w with contexts := w.contexts.push (.fresh l v) }.Houses path l table := by
  constructor
  · exact files
  · simp
  · simp [World.contextAccess, first, Context.fresh]
  · simp [first, Context.fresh, Settings.new]
  · simp [first, Context.fresh, Settings.new]
  · simp [first, Context.fresh, Registry.new, Observable.new]
  · simp only [first]
    exact Registry.Catalog.within_panels _

theorem value_push (first : w.contexts = #[]) (v : UserSettings) :
    ((w.contexts.push (.fresh l v)).getD 0 .blank).settings.settings.value = .new v := by
  simp [first, Context.fresh, Settings.new]

/-- The table after a session has begun. -/
def begun (table : OrderedMap String Stored) (stored : Option ByteArray) :
    OrderedMap String Stored :=
  match UserSettings.read stored with
  | .ok u => table.insert settingsKey (.bytes u.bytes)
  | .error _ => table

/-- A context that is made on a database keeps the settings in it. -/
theorem makeContext_yields (files : w.media.files.Attached path l table)
    (first : w.contexts = #[]) (has : table.get? settingsKey = stored.map .bytes) :
    (makeContext nested ⟨.database l, none⟩).Yields w
      fun i w' => i = 0 ∧ w'.Maintains path l (begun table stored) (.loaded stored) := by
  refine .bind ((readRecord_yields files.toInUse has).mono fun r w' => ?_)
  rintro ⟨rfl, rfl⟩
  have size : w'.contexts.size = 0 := by
    rw [first]
    rfl
  unfold begun UserSettings.loaded
  cases UserSettings.read stored with
  -- What was read is written back, although it may be there in the same words.
  | ok v =>
    refine .bind (.look (.bind (.change (.pure ?_))))
    rw [size]
    refine .bind ((keep_yields (houses_push files first v) (value_push first v)).mono ?_)
    exact fun _ _ kept => .pure ⟨rfl, kept⟩
  -- What cannot be read is left alone: the keeper lets the default go.
  | error e =>
    refine .bind (.change (.bind (.look (.bind (.change (.pure ?_))))))
    have told : (World.note (.notice (.fellBackToDefault settingsKey e)) w').contexts.size = 0 :=
      size
    rw [told]
    refine .bind ((keep_skipping_yields ((houses_push files first .initial).record _) ?_).mono
      fun _ _ kept => .pure ⟨rfl, kept⟩)
    exact value_push first .initial

/-! ## Steps -/

theorem World.Maintains.settle (h : w.Maintains path l table u) {name : String}
    (named : w.contextNames.get? name = some 0) : w.settle.Maintains path l table u := by
  have kept : w.media.files.closeUnneeded w.needs = w.media.files :=
    h.files.toInUse.closeUnneeded_of_needed
      (World.needs_of_context h.small named (congrArg Access.medium h.access))
  rw [World.settle, kept]
  exact h

section Steps

variable [Inhabited ρ] [Settings.Record ρ] [Text.Describe ρ]

/-- What a session on a settings file begins with. -/
theorem exec_bootstrap {files : FileTree} (serves : files.Serves path l table)
    (ordinary : Media.isPrivateName path = false) (has : table.get? settingsKey = stored.map .bytes)
    (budget : Nat) :
    ((language ρ).exec (budget + 1) (.bootstrap "" ⟨path⟩)).Yields (World.start files)
      fun _ w' => w'.Maintains path l (begun table stored) (.loaded stored) ∧
        w'.contextNames.get? "" = some 0 := by
  obtain ⟨t, t', made, opened, attached⟩ := serves.attach
  -- The database can be opened, so that the session does not fall back to memory.
  have medium : ((language ρ).record (.began (.bootstrap "" ⟨path⟩))
      (World.start files)).media.openDatabase path =
        (.ok (.database l), { Media.ofFiles files with files := t' }) := by
    show (Media.ofFiles files).openDatabase path = _
    simp [Media.openDatabase, ordinary, Media.ofFiles, made, opened]
  refine .bind (.change (.bind (.look ?_)))
  simp only [medium]
  refine .bind (.change ((makeContext_yields attached rfl has).mono fun i w' => ?_))
  rintro ⟨rfl, maintains⟩
  have named := OrderedMap.get?_insert_self w'.contextNames "" 0
  refine .bind (.change (.pure ⟨World.Maintains.settle ?_ named, named⟩))
  exact ⟨⟨maintains.files, maintains.small, maintains.access, maintains.key, maintains.default,
    maintains.bare, maintains.catalog⟩, maintains.value⟩

end Steps

end LiveState.Session
