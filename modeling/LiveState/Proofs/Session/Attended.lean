import LiveState.Proofs.Observable.Callbacks
import LiveState.Proofs.Session.Filing
import LiveState.Proofs.Session.Ranged

/-! # Attended contexts

In every session, whatever its steps, all contexts write their settings back before anybody else
hears of them, and nobody can end that.  So the settings that a context has written last are those
that it has, and they are stored until somebody else writes under their key.
-/

namespace LiveState.Session

variable {ρ σ : Type}

/-- The settings of a context are written back to a medium that is there, before anybody else hears
    of them. -/
structure Context.Attended (c : Context σ) (m : Media) : Prop where
  keeper : c.settings.settings.value.KeeperFirst fun _ => True
  key : c.settings.settings.key = settingsKey
  has : m.Has c.settings.access.medium
  catalog : c.panels.catalog = .panels

/-- A context has these settings, and they are stored. -/
structure Context.Filed (c : Context σ) (m : Media) (u : UserSettings) : Prop where
  value : c.settings.settings.value.value = u
  holding : m.holding c.settings.access.medium settingsKey = some (.bytes u.bytes)

/-- The context of a number. -/
def World.contextAt (w : World ρ) (i : Nat) : Context (Step ρ) := w.contexts.getD i .blank

/-- The observable settings of a context. -/
def World.settingsCell (w : World ρ) (i : Nat) :
    Observable UserSettings (Listener (Step ρ) UserSettings) :=
  (w.contextAt i).settings.settings.value

/-- The settings of a context. -/
def World.settingsOf (w : World ρ) (i : Nat) : UserSettings := (w.settingsCell i).value

/-- The path of a database that a line tells was opened, be it from outside. -/
def opened? : Line ρ → Option String
  | .began (.medium _ (.openAs (.database path))) => some path
  | .began (.file (.putText path _ _)) | .began (.file (.makeForeign path)) => some path
  | .began (.bootstrap _ config) => some config.settingsPath
  | _ => none

/-- Whether the database at a location may have been in use in a session on the given files. -/
def World.Engaged (files : FileTree) (w : World ρ) (l : Location) : Prop :=
  (files.usages.get? l).isSome = true ∨
    ∃ e ∈ w.journal, ∃ path, opened? e = some path ∧ Location.resolve files.cwd path = l

/-- Whether nobody closes the medium of a context, and no other database keeps one of its files in
    the place of its own. -/
def World.Retains (files : FileTree) (w : World ρ) (i : Nat) : Prop :=
  (∀ l, (w.contextAccess i).medium = .database l → ∀ j, w.Engaged files j → ¬ l.IsBeside j) ∧
    ∃ name, w.contextNames.get? name = some i

variable {w w' : World ρ} {files : FileTree}

theorem World.Engaged.record {l : Location} (h : w.Engaged files l) (e : Line ρ) :
    (w.record e).Engaged files l :=
  h.imp_right fun ⟨e', there, opens⟩ => ⟨e', Array.mem_push_of_mem e there, opens⟩

theorem World.engaged_record {e : Line ρ} {path : String} (opens : opened? e = some path) :
    (w.record e).Engaged files (Location.resolve files.cwd path) :=
  .inr ⟨e, Array.mem_push_self, path, opens, rfl⟩

theorem getD_push_self {κ : Type} (xs : Array κ) (x blank : κ) :
    (xs.push x).getD xs.size blank = x := by
  simp [Array.getD]

theorem getD_push_of_ne {κ : Type} {xs : Array κ} {i : Nat} (h : i ≠ xs.size) (x blank : κ) :
    (xs.push x).getD i blank = xs.getD i blank := by
  by_cases small : i < xs.size
  · simp [Array.getD, small, Nat.lt_succ_of_lt small, Array.getElem_push_lt]
  · have large : ¬ i < (xs.push x).size := by
      rw [Array.size_push]
      omega
    rw [Array.getD, dif_neg large, Array.getD, dif_neg small]

/-- What no change of an entry touches stays everywhere. -/
theorem map_getD_modify {κ β : Type} (g : κ → β) {f : κ → κ} (hf : ∀ x, g (f x) = g x)
    (xs : Array κ) (i j : Nat) (blank : κ) :
    g ((xs.modify j f).getD i blank) = g (xs.getD i blank) := by
  by_cases here : j = i
  · subst here
    by_cases small : j < xs.size
    · rw [getD_modify small, hf]
    · simp [Array.getD, small]
  · rw [getD_modify_of_ne here]

variable [Inhabited ρ]

/-- All contexts are attended, and what they have written last is stored. -/
structure World.Attended (files : FileTree) (w : World ρ) : Prop where
  names : ∀ name i, w.contextNames.get? name = some i → i < w.contexts.size
  /-- The subscriber that writes back has no handle. -/
  handles : ∀ name i id, w.subscriptions.get? name = some (.contextSettings i, id) →
    i < w.contexts.size ∧ id ≠ 0
  media : ∀ name medium, w.storages.get? name = some medium → w.media.Has medium
  /-- Whenever a record writes, it is shown before. -/
  shown : ∀ j, (w.recordAccess j).shownAs = none → (w.recordAccess j).medium = .disabled
  attended : ∀ i < w.contexts.size, (w.contextAt i).Attended w.media
  /-- What is in use is what was opened. -/
  engages : FileTree.Engages (w.Engaged files) files w.media.files
  unborn : ∀ i, w.contexts.size ≤ i → (w.filing i).filed = none
  filed : ∀ i u, w.Retains files i → (w.filing i).filed = some u →
    (w.contextAt i).Filed w.media u

variable {i j : Nat} {m : Media} {u v : UserSettings}

/-- A line that does not tell that settings were written. -/
def Modest (e : Line ρ) : Prop :=
  ∀ i pass, e ≠ .happened (.contextSettings i (.value (.returned pass 0)))

namespace World

/-- From `w` to `w'` no context was taken away, settings were changed only by setting them, and neither
    contexts nor records have changed their media. -/
structure Onward (w w' : World ρ) : Prop where
  size : w.contexts.size ≤ w'.contexts.size
  access : ∀ i < w.contexts.size, w'.contextAccess i = w.contextAccess i
  settings : ∀ i < w.contexts.size, (w.settingsCell i).Later (w'.settingsCell i)
  records : ∀ j, (w.recordAccess j).medium ≠ .disabled →
    (w'.recordAccess j).medium = (w.recordAccess j).medium

namespace Onward

theorem refl (w : World ρ) : Onward w w :=
  ⟨Nat.le_refl _, fun _ _ => rfl, fun _ _ => .refl _, fun _ _ => rfl⟩

theorem trans {w'' : World ρ} (h : Onward w w') (k : Onward w' w'') : Onward w w'' where
  size := Nat.le_trans h.size k.size
  access i small := (k.access i (Nat.lt_of_lt_of_le small h.size)).trans (h.access i small)
  settings i small := (h.settings i small).trans (k.settings i (Nat.lt_of_lt_of_le small h.size))
  records j on := by
    have same := h.records j on
    exact (k.records j (same ▸ on)).trans same

theorem of_eq (contexts : w'.contexts = w.contexts) (records : w'.records = w.records) :
    Onward w w' where
  size := Nat.le_of_eq (congrArg Array.size contexts.symm)
  access i _ := congrArg (fun contexts => (contexts.getD i .blank).settings.access) contexts
  settings i _ := .of_eq
    (congrArg (fun contexts => (contexts.getD i .blank).settings.settings.value) contexts)
  records j _ := congrArg (fun records => (records.getD j .blank).access.medium) records

theorem modify {f : Context (Step ρ) → Context (Step ρ)}
    (access : ∀ c, (f c).settings.access = c.settings.access)
    (settings : ∀ c : Context (Step ρ),
      c.settings.settings.value.Later (f c).settings.settings.value) :
    Onward w { w with contexts := w.contexts.modify j f } where
  size := Nat.le_of_eq (Array.size_modify ..).symm
  access i _ := map_getD_modify (·.settings.access) access w.contexts i j .blank
  settings i small := by
    by_cases here : j = i
    · subst here
      exact (settings _).trans
        (.of_eq (congrArg (·.settings.settings.value) (getD_modify small f .blank)))
    · exact .of_eq
        (congrArg (·.settings.settings.value) (getD_modify_of_ne here w.contexts f .blank))
  records _ _ := rfl

theorem push (w : World ρ) (c : Context (Step ρ)) :
    Onward w { w with contexts := w.contexts.push c } where
  size := by simp
  access _ small := congrArg (·.settings.access) (getD_push_of_ne (Nat.ne_of_lt small) ..)
  settings _ small := .of_eq
    (congrArg (·.settings.settings.value) (getD_push_of_ne (Nat.ne_of_lt small) c .blank))
  records _ _ := rfl

theorem modifyRecord {f : Kept (Step ρ) ρ → Kept (Step ρ) ρ}
    (access : ∀ k, (f k).access = k.access) :
    Onward w { w with records := w.records.modify j f } where
  size := Nat.le_refl _
  access _ _ := rfl
  settings _ _ := .refl _
  records i _ := congrArg Access.medium (map_getD_modify (·.access) access w.records i j .blank)

theorem pushRecord (w : World ρ) (k : Kept (Step ρ) ρ) :
    Onward w { w with records := w.records.push k } where
  size := Nat.le_refl _
  access _ _ := rfl
  settings _ _ := .refl _
  records j on := by
    refine congrArg (·.access.medium) (getD_push_of_ne ?_ k .blank)
    -- Where there is no record yet, there is no medium.
    rintro rfl
    exact on (by simp [recordAccess, Array.getD, Kept.blank])

end Onward

theorem firmer_push (w : World ρ) (c : Context (Step ρ)) (i : Nat) :
    (w.filing i).Firmer ({ w with contexts := w.contexts.push c }.filing i) := by
  refine firmer_filing rfl fun s on => ?_
  cases s with
  | contextSettings k =>
    refine congrArg (·.settings.access.medium) (getD_push_of_ne ?_ c .blank)
    -- Where there is no context yet, there is no medium.
    rintro rfl
    exact on (by simp [World.mediumOf, World.contextAccess, Array.getD, Context.blank, Kept.blank])
  | settings k | contextPanels k => rfl

end World

namespace World.Attended

theorem start (files : FileTree) : (World.start (ρ := ρ) files).Attended files where
  names _ _ h := by cases h
  handles _ _ _ h := by cases h
  media _ _ h := by cases h
  shown _ _ := rfl
  attended _ small := nomatch small
  engages := .refl files
  unborn _ _ := rfl
  filed _ _ retains := by
    obtain ⟨-, name, named⟩ := retains
    cases named

/-- All that is in use has been opened. -/
theorem used (h : w.Attended files) {l : Location}
    (used : (w.media.files.usages.get? l).isSome = true) : w.Engaged files l :=
  (h.engages.used l used).elim .inl id

theorem further (h : w.Attended files) (e : Line ρ)
    (unborn : ∀ i, w.contexts.size ≤ i → ((w.record e).filing i).filed = none)
    (filed : ∀ i u, w.Retains files i → ((w.record e).filing i).filed = some u →
      (w.contextAt i).Filed w.media u) : (w.record e).Attended files :=
  { h with
    engages := h.engages.mono fun _ engaged => engaged.record e
    unborn := unborn
    filed := fun i u ⟨own, named⟩ => filed i u
      ⟨fun l uses j engaged => own l uses j (engaged.record e), named⟩ }

theorem record (h : w.Attended files) {e : Line ρ} (modest : Modest e) :
    (w.record e).Attended files := by
  refine h.further e (fun i large => ?_) fun i u retains filed =>
    h.filed i u retains (filed_record (modest i) filed)
  refine Option.eq_none_iff_forall_ne_some.2 fun u filed => ?_
  have before := filed_record (modest i) filed
  rw [h.unborn i large] at before
  cases before

/-- The settings of context `j` have been written. -/
theorem returned (h : w.Attended files) (small : j < w.contexts.size) (pass : Option Nat)
    (done : ∀ u, (w.filing j).writing = some u → (w.contextAt j).Filed w.media u) :
    (w.record (.happened (.contextSettings j (.value (.returned pass 0))))).Attended files := by
  have other (i : Nat) (ne : i ≠ j) :
      ((w.record (.happened (.contextSettings j (.value (.returned pass 0))))).filing i) =
        w.filing i := by
    rw [filing_record]
    exact if_neg fun same => ne same.symm
  refine h.further _ (fun i large => ?_) fun i u retains filed => ?_
  · rw [other i (Nat.ne_of_gt (Nat.lt_of_lt_of_le small large))]
    exact h.unborn i large
  · by_cases here : i = j
    · subst here
      exact done u ((filing_returned w i pass).symm.trans filed)
    · rw [other i here] at filed
      exact h.filed i u retains filed

/-! ## Media -/

/-- Media may change as long as no table in memory is taken away, and what was written last
    stays. -/
theorem remedy (h : w.Attended files) (grows : w.media.regions.size ≤ m.regions.size)
    (engages : FileTree.Engages (w.Engaged files) w.media.files m.files)
    (stays : ∀ i u, w.Retains files i → (w.filing i).filed = some u →
      w.media.holding (w.contextAccess i).medium settingsKey = some (.bytes u.bytes) →
      m.holding (w.contextAccess i).medium settingsKey = some (.bytes u.bytes)) :
    { w with media := m }.Attended files :=
  { h with
    media := fun name medium found => (h.media name medium found).mono grows
    attended := fun i small =>
      have before := h.attended i small
      ⟨before.keeper, before.key, before.has.mono grows, before.catalog⟩
    engages := h.engages.trans engages
    filed := fun i u retains filed =>
      have before := h.filed i u retains filed
      ⟨before.value, stays i u retains filed before.holding⟩ }

/-- Somebody may write as long as it is told before. -/
theorem write (h : w.Attended files) (medium : Medium) (key : String) (bytes : ByteArray)
    (told : ∀ i u, (w.filing i).filed = some u →
      settingsKey ≠ key ∨ ¬ medium.Shares (w.contextAccess i).medium) :
    { w with media := (w.media.write medium key bytes).2 }.Attended files := by
  refine h.remedy (Nat.le_of_eq Media.size_regions_write.symm)
    (Media.engages_write _ medium key bytes) fun i u _ filed holds => ?_
  rw [Media.holding_write_of_apart (told i u filed), holds]

theorem settle (h : w.Attended files) : w.settle.Attended files := by
  refine h.remedy (Nat.le_refl _) (FileTree.engages_closeUnneeded _ _) fun i u retains _ holds => ?_
  obtain ⟨own, name, named⟩ := retains
  exact Media.holding_closeUnneeded holds
    (fun l uses => World.needs_of_context (h.names name i named) named uses)
    fun l uses j used => own l uses j (h.used used)

theorem open_ (h : w.Attended files) (name : String) {medium : Medium} (has : w.media.Has medium) :
    { w with storages := w.storages.insert name medium }.Attended files :=
  { h with
    media := fun name' medium' found => by
      rcases OrderedMap.get?_insert_cases found with ⟨-, rfl⟩ | found
      · exact has
      · exact h.media name' medium' found }

theorem close (h : w.Attended files) (name : String) :
    { w with storages := w.storages.erase name }.Attended files :=
  { h with
    media := fun name' medium found => h.media name' medium (OrderedMap.get?_of_get?_erase found) }

/-! ## Records -/

/-- Contexts are attended as long as records keep their media. -/
theorem records (h : w.Attended files) {records : Array (Kept (Step ρ) ρ)}
    (onward : w.Onward { w with records := records })
    (shown : ∀ j, (records.getD j .blank).access.shownAs = none →
      (records.getD j .blank).access.medium = .disabled) :
    { w with records := records }.Attended files := by
  have firmer (i : Nat) : (w.filing i).Firmer ({ w with records := records }.filing i) := by
    refine firmer_filing rfl fun s on => ?_
    cases s with
    | settings j => exact onward.records j on
    | contextSettings j | contextPanels j => rfl
  exact { h with
    shown := shown
    unborn := fun i large => (firmer i).unfiled (h.unborn i large)
    filed := fun i u retains filed => h.filed i u retains ((firmer i).filed u filed) }

theorem modifyRecord (h : w.Attended files) (j : Nat) {f : Kept (Step ρ) ρ → Kept (Step ρ) ρ}
    (access : ∀ k, (f k).access = k.access) :
    { w with records := w.records.modify j f }.Attended files := by
  refine h.records (.modifyRecord access) fun i hidden => ?_
  have same : ((w.records.modify j f).getD i .blank).access = w.recordAccess i :=
    map_getD_modify (·.access) access w.records i j .blank
  rw [same] at hidden ⊢
  exact h.shown i hidden

theorem pushRecord (h : w.Attended files) {k : Kept (Step ρ) ρ} (shown : k.access.shownAs ≠ none) :
    { w with records := w.records.push k }.Attended files := by
  refine h.records (.pushRecord w k) fun j hidden => ?_
  by_cases here : j = w.records.size
  · rw [here, getD_push_self] at hidden
    exact absurd hidden shown
  · rw [getD_push_of_ne here] at hidden ⊢
    exact h.shown j hidden

/-! ## Names -/

theorem erase (h : w.Attended files) (name : String) :
    { w with contextNames := w.contextNames.erase name }.Attended files :=
  { h with
    names := fun name' i found => h.names name' i (OrderedMap.get?_of_get?_erase found)
    filed := fun i u retains => h.filed i u
      ⟨retains.1, retains.2.imp fun _ => OrderedMap.get?_of_get?_erase⟩ }

theorem recordNames (h : w.Attended files) (names : OrderedMap String Nat) :
    { w with recordNames := names }.Attended files := { h with }

theorem forget (h : w.Attended files) (name : String) :
    { w with subscriptions := w.subscriptions.erase name }.Attended files :=
  { h with
    handles := fun name' i id found =>
      h.handles name' i id (OrderedMap.get?_of_get?_erase found) }

theorem enrol (h : w.Attended files) {source : Source} {id : Nat} (name : String)
    (other : ∀ i, source = .contextSettings i → i < w.contexts.size ∧ id ≠ 0) :
    (w.enrol source name id).Attended files :=
  { h with
    handles := fun name' i id' found => by
      rcases OrderedMap.get?_insert_cases found with ⟨-, same⟩ | found
      · cases same
        exact other i rfl
      · exact h.handles name' i id' found }

/-! ## Contexts -/

theorem modify (h : w.Attended files) (j : Nat) {f : Context (Step ρ) → Context (Step ρ)}
    (access : ∀ c, (f c).settings.access = c.settings.access)
    (key : ∀ c, (f c).settings.settings.key = c.settings.settings.key)
    (catalog : ∀ c, (f c).panels.catalog = c.panels.catalog)
    (keeper : ∀ c : Context (Step ρ), c.settings.settings.value.KeeperFirst (fun _ => True) →
      (f c).settings.settings.value.KeeperFirst fun _ => True)
    (value : ∀ u, (w.filing j).filed = some u →
      ∀ c, (f c).settings.settings.value.value = c.settings.settings.value.value) :
    { w with contexts := w.contexts.modify j f }.Attended files := by
  have size : (w.contexts.modify j f).size = w.contexts.size := Array.size_modify ..
  have accesses (i : Nat) : ({ w with contexts := w.contexts.modify j f } : World ρ).contextAccess i =
      w.contextAccess i := map_getD_modify (·.settings.access) access w.contexts i j .blank
  have firmer (i : Nat) :
      (w.filing i).Firmer ({ w with contexts := w.contexts.modify j f }.filing i) := by
    refine firmer_filing rfl fun s _ => ?_
    cases s with
    | contextSettings k => exact congrArg Access.medium (accesses k)
    | settings k | contextPanels k => rfl
  have changed (small : j < w.contexts.size) :
      ({ w with contexts := w.contexts.modify j f } : World ρ).contextAt j = f (w.contextAt j) :=
    getD_modify small ..
  have aside (i : Nat) (other : j ≠ i) :
      ({ w with contexts := w.contexts.modify j f } : World ρ).contextAt i = w.contextAt i :=
    getD_modify_of_ne other ..
  -- Only context `j` can have become another one; its medium and its key are the same.
  refine { h with
    names := fun name i found => Nat.lt_of_lt_of_eq (h.names name i found) size.symm
    handles := fun name i id found =>
      (h.handles name i id found).imp_left fun small => Nat.lt_of_lt_of_eq small size.symm
    attended := fun i small => ?_
    unborn := fun i large =>
      (firmer i).unfiled (h.unborn i (Nat.le_trans (Nat.le_of_eq size.symm) large))
    filed := fun i u retains filed => ?_ }
  · have small := Nat.lt_of_lt_of_eq small size
    have before := h.attended i small
    by_cases here : j = i
    · subst here
      rw [changed small]
      exact ⟨keeper _ before.keeper, (key _).trans before.key, by rw [access]; exact before.has,
        (catalog _).trans before.catalog⟩
    · rw [aside i here]
      exact before
  · obtain ⟨own, name, named⟩ := retains
    have before := (firmer i).filed u filed
    obtain ⟨current, holding⟩ := h.filed i u ⟨accesses i ▸ own, name, named⟩ before
    by_cases here : j = i
    · subst here
      rw [changed (h.names name j named)]
      exact ⟨(value u before _).trans current, by rw [access]; exact holding⟩
    · rw [aside i here]
      exact ⟨current, holding⟩

theorem push (h : w.Attended files) {c : Context (Step ρ)} (attended : c.Attended w.media) :
    { w with contexts := w.contexts.push c }.Attended files := by
  have grows : w.contexts.size < (w.contexts.push c).size := by simp
  have old (i : Nat) (small : i < w.contexts.size) :
      ({ w with contexts := w.contexts.push c } : World ρ).contextAt i = w.contextAt i :=
    getD_push_of_ne (Nat.ne_of_lt small) c .blank
  refine { h with
    names := fun name i found => Nat.lt_trans (h.names name i found) grows
    handles := fun name i id found =>
      (h.handles name i id found).imp_left fun small => Nat.lt_trans small grows
    attended := fun i small => ?_
    unborn := fun i large =>
      (firmer_push w c i).unfiled (h.unborn i (Nat.le_trans (Nat.le_of_lt grows) large))
    filed := fun i u retains filed => ?_ }
  -- The new context stands behind all others, so that no name and no line tells of it.
  · by_cases here : i < w.contexts.size
    · rw [old i here]
      exact h.attended i here
    · have last : i = w.contexts.size := by
        have small : i < (w.contexts.push c).size := small
        rw [Array.size_push] at small
        omega
      subst last
      have new : ({ w with contexts := w.contexts.push c } : World ρ).contextAt w.contexts.size =
          c := getD_push_self ..
      rw [new]
      exact attended
  · have before := (firmer_push w c i).filed u filed
    obtain ⟨own, name, named⟩ := retains
    have small := h.names name i named
    have same : ({ w with contexts := w.contexts.push c } : World ρ).contextAccess i =
        w.contextAccess i := congrArg (·.settings.access) (old i small)
    rw [old i small]
    exact h.filed i u ⟨same ▸ own, name, named⟩ before

theorem name (h : w.Attended files) (small : i < w.contexts.size)
    (done : ∀ u, (w.filing i).filed = some u → (w.contextAt i).Filed w.media u) (name : String) :
    { w with contextNames := w.contextNames.insert name i }.Attended files :=
  { h with
    names := fun name' j found => by
      rcases OrderedMap.get?_insert_cases found with ⟨-, rfl⟩ | found
      · exact small
      · exact h.names name' j found
    filed := fun j u retains filed => by
      obtain ⟨own, name', named⟩ := retains
      rcases OrderedMap.get?_insert_cases named with ⟨-, rfl⟩ | named
      · exact done u filed
      · exact h.filed j u ⟨own, name', named⟩ filed }

end World.Attended

end LiveState.Session
