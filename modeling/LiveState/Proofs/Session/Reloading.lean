import LiveState.Proofs.Session.Loading
import LiveState.Proofs.Settings.Layout

/-! # Reloading

What a fresh load of a record gives, once a change of the record has been written: the very value
that the change has stored, if that value is read back from its bytes.
-/

namespace LiveState

theorem Media.read_eq_holding {m : Media} {medium : Medium} {key : String} {bytes : ByteArray}
    {answer : Option ByteArray} (holds : m.holding medium key = some (.bytes bytes))
    (reads : (m.read medium key).answer? = some (.ok answer)) : answer = some bytes := by
  cases medium with
  | disabled => cases holds
  | region index =>
    obtain ⟨found, there, same⟩ := Option.map_eq_some_iff.1 holds
    cases same
    simpa [read, Response.answer?, there] using reads.symm
  | switched index switches =>
    obtain ⟨found, there, same⟩ := Option.map_eq_some_iff.1 holds
    cases same
    simp only [read] at reads
    split at reads
    · simpa [Response.answer?, there] using reads.symm
    all_goals cases reads
  | database location =>
    obtain ⟨table, opened, there⟩ := Option.bind_eq_some_iff.1 holds
    simpa [read, opened, there, Response.answer?] using reads.symm

theorem Media.read_region (m : Media) (index : Nat) (key : String) :
    ∃ stored, (m.read (.region index) key).answer? = some (.ok stored) :=
  ⟨m.lookup index key, rfl⟩

/-- An action that sets a value which was `u` to `v`. -/
inductive Observable.Action.Sets {σ α : Type} : Observable.Action σ α → α → α → Prop where
  | set (u v : α) : Sets (.set v) u v
  | update (f : α → α) (u : α) : Sets (.update f false []) u (f u)
  | replaceWith (f : α → α) (u : α) : Sets (.replaceWith f false []) u (f u)

theorem Observable.Action.Sets.world {W σ α : Type} [Text.Describe α]
    {p : Place W α (Listener σ α)} {nested : Nested W σ} {copy : α → Act W Unit}
    {enrol : String → Nat → W → W} {action : Observable.Action σ α} {w : W} {v : α}
    (h : action.Sets (p.cell w).value v) :
    ((action.perform p nested copy enrol).perform w).2 =
      ((p.set (Listener.hear p nested.act copy) v).perform w).2 := by
  -- The answer alone comes after the change.
  have answered (m : Act W Unit) :
      ((do m; return .done : Act W (Observable.Answer α)).perform w).2 = (m.perform w).2 := by
    rw [Act.perform_bind]
    rcases m.perform w with ⟨_ | _, _⟩ <;> rfl
  -- Without steps in it, an update is no more than a change to what is computed from the value.
  have updated (f : α → α) :
      (p.update (Listener.hear p nested.act copy) f false ([].forM nested.inside)).perform w =
        (p.set (Listener.hear p nested.act copy) (f (p.cell w).value)).perform w := by
    have nothing : [].forM nested.inside = (pure () : Act W Unit) := rfl
    simp only [Place.update, nothing, Act.perform_bind, Place.perform_look, Act.perform_pure,
      Bool.false_eq_true, if_false]
  cases h with
  | set v => rw [perform, answered]
  | update f => rw [perform, answered, updated]
  | replaceWith f => rw [perform, answered, updated]

namespace Session

variable {ρ : Type} [Inhabited ρ] [Settings.Record ρ]

/-! ## Records that are tended -/

/-- A run loads record `i` under a name, and then does nothing but steps on it. -/
inductive World.Tended [Text.Describe ρ] (name storage key : String) (i : Nat) (medium : Medium) :
    World ρ → Prop where
  | run (files : FileTree) (budget : Nat) (before after : List (Step ρ)) {default v : ρ}
      {lines : List (Line ρ)} {loaded : World ρ}
      (loads : (language ρ).runStep budget (.load name storage key default)
        ((language ρ).run budget before (World.start files)).2 =
          (⟨.ok (.loaded v), lines⟩, loaded))
      (named : loaded.recordNames.get? name = some i)
      (access : loaded.recordAccess i = ⟨medium, some storage⟩)
      (tends : ∀ s ∈ after, Tends name s) :
      Tended name storage key i medium ((language ρ).run budget after loaded).2

variable {w w' : World ρ} {name storage key : String} {i : Nat} {medium : Medium} {v : ρ}
  {bytes : ByteArray} {lines : List (Line ρ)}

theorem World.Tended.mirroring [Text.Describe ρ] (h : w.Tended name storage key i medium) :
    World.Mirroring w name i medium storage key w := by
  obtain ⟨files, budget, before, after, loads, named, access, tends⟩ := h
  rw [Language.runStep_eq] at loads
  obtain ⟨outcome, there⟩ := Prod.mk.inj loads
  obtain ⟨i', medium', -, named', keeps⟩ := exec_load (run_ranged files budget before)
    (Prod.ext (congrArg Language.Outcome.ending outcome) there)
  -- The record of the name is the one that was loaded.
  obtain rfl : i' = i := Option.some.inj (named'.symm.trans named)
  obtain rfl : medium' = medium := congrArg Access.medium (keeps.access.symm.trans access)
  obtain ⟨-, sound, -⟩ := heeds_mirroring.run (P := fun _ => True) (fun _ _ => trivial) budget
    tends (.self named keeps)
  exact .self sound.named sound.keeps

/-! ## What a step stores -/

/-- Setting a record that is kept stores the value before anything else happens, unless the value
    is borrowed. -/
theorem set_stores {nested nested' : Nested (World ρ) (Step ρ)}
    (hn : ∀ start, Nested.Carried (mirroring start name i medium storage key) (Tends name) nested
      nested')
    (named : w.recordNames.get? name = some i) (keeps : w.Keeps name i medium storage key) (v : ρ)
    (ran : (((recordSite ⟨medium, some storage⟩ i).value.set
      ((recordSite ⟨medium, some storage⟩ i).call nested) v).perform w).2 = w') :
    w' = w ∨ ∃ number more, w'.journal.toList = w.journal.toList ++
      .happened (.settings i (.value (.committed number v))) :: more := by
  cases borrowed : ((recordSite ⟨medium, some storage⟩ i).value.cell w).isBorrowed with
  | true =>
    rw [Place.perform_set_borrowed borrowed] at ran
    exact .inl ran.symm
  | false =>
    right
    obtain ⟨rest, listed, once⟩ := keeps.value.listed
    rw [perform_set_listed keeps _ borrowed listed] at ran
    -- The record is still kept when the value has been stored, and after the first turn.
    have stored : ((recordSite ⟨medium, some storage⟩ i).value.committed v w).Keeps name i medium
        storage key :=
      (World.Keeps.adjust keeps.toHosts _ (keeps.value.store v)).record _
    obtain ⟨u, more, turn, turned, -⟩ := deliver_tries nested stored.value.keeper medium storage
      (some (((recordSite ⟨medium, some storage⟩ i).value.cell w).version + 1)) v
    have kept : u.Keeps name i medium storage key :=
      stored.of_eq turned.records (fun handle id found => stored.handles handle id
        (turned.subscriptions ▸ found)) turned.regions
    have names : u.recordNames.get? name = some i := by
      rw [turned.names]
      exact named
    have served (id : Nat) (turn : id ∈ rest) := mirroring_servedAt ⟨medium, some storage⟩ (hn u)
      fun same : id = 0 => once (same ▸ turn)
    have rests := (Place.announce_carries (mirroring_quiescent _ i)
      (((recordSite ⟨medium, some storage⟩ i).value.cell w).version + 1) v served u
      (.self names kept)).sound
    rw [Act.perform_bind, turn] at ran
    obtain ⟨lines, journal, -⟩ := rests.lines
    subst ran
    refine ⟨((recordSite ⟨medium, some storage⟩ i).value.cell w).version + 1, more ++ lines,
      journal.trans ?_⟩
    rw [turned.journal]
    show (w.journal.push _).toList ++ more ++ lines = _
    rw [Array.toList_push, List.append_assoc, List.append_assoc]
    rfl

variable [Text.Describe ρ] {budget : Nat}

theorem perform_settings {nested : Nested (World ρ) (Step ρ)}
    (named : w.recordNames.get? name = some i) (action : Settings.Action (Step ρ) ρ) :
    (perform nested (.settings name action)).perform w =
      (.settings <$> action.perform (recordSite (w.recordAccess i) i) nested
        (World.enrol (.settings i))).perform w := by
  simp only [perform, withRecord, Act.perform_bind, Act.perform_view, named]

theorem carried_mirroring (start : World ρ) (budget : Nat) :
    Nested.Carried (mirroring start name i medium storage key) (Tends name)
      ((language ρ).nested ((language ρ).exec budget))
      (((language ρ).guarded fun _ => True).nested
        (((language ρ).guarded fun _ => True).exec budget)) :=
  heeds_mirroring.nested (heeds_mirroring.exec (fun _ _ => trivial) budget)

/-- Without its first line, a step that sets a record is no more than the change. -/
theorem exec_sets {action : Observable.Action (Step ρ) ρ}
    (named : w.recordNames.get? name = some i) (access : w.recordAccess i = ⟨medium, some storage⟩)
    (sets : action.Sets (w.valueOf i) v) (budget : Nat) :
    (((language ρ).exec (budget + 1) (.settings name (.value action))).perform w).2 =
      (((recordSite ⟨medium, some storage⟩ i).value.set
        ((recordSite ⟨medium, some storage⟩ i).call ((language ρ).nested ((language ρ).exec budget)))
        v).perform (w.record (.began (.settings name (.value action))))).2 := by
  let began := w.record (.began (.settings name (.value action)))
  have access : began.recordAccess i = ⟨medium, some storage⟩ := access
  show ((perform _ (.settings name (.value action))).perform began).2 = _
  rw [perform_settings (w := began) named, access, Act.perform_map, Settings.Action.perform,
    Act.perform_map]
  exact Observable.Action.Sets.world (p := (recordSite ⟨medium, some storage⟩ i).value) sets

/-- A step that sets a record, and after which nobody changes it again, has stored the value. -/
theorem stored_of_sets (kept : World.Mirroring w name i medium storage key w)
    {action : Observable.Action (Step ρ) ρ} (sets : action.Sets (w.valueOf i) v)
    {o : Language.Outcome (Step ρ) (Reply ρ) (Incident ρ)}
    (ran : (language ρ).runStep budget (.settings name (.value action)) w = (o, w'))
    (once : (stored i o.events).length = 1) : stored i o.events = [v] := by
  obtain ⟨outcome, there⟩ := Prod.mk.inj (Language.runStep_eq .. ▸ ran)
  have events : o.events = w.since w' := there ▸ congrArg Language.Outcome.events outcome.symm
  rw [events] at once ⊢
  cases budget with
  | zero =>
    obtain rfl : w = w' := there
    have none : w.since w = [] := World.since_eq (by simp)
    rw [none] at once
    cases once
  | succ budget =>
    rw [exec_sets kept.named kept.keeps.access sets] at there
    have began : (w.record (.began (.settings name (.value action)))).journal.toList =
        w.journal.toList ++ [.began (.settings name (.value action))] := Array.toList_push
    obtain rfl | ⟨number, more, journal⟩ :=
      set_stores (fun start => carried_mirroring start budget) (w := w.record _) kept.named
        (kept.keeps.record _) v there
    -- A borrowed value is not changed at all.
    · rw [World.since_eq began] at once
      cases once
    · rw [began, List.append_assoc] at journal
      have first : stored? i (.happened (.settings i (.value (.committed number v)))) = some v :=
        if_pos rfl
      rw [World.since_eq journal, stored, List.singleton_append, List.filterMap_cons_none rfl,
        List.filterMap_cons_some first] at once ⊢
      rw [List.length_eq_zero_iff.1 (Nat.succ.inj once)]

/-! ## What a fresh load gives -/

omit [Inhabited ρ] [Text.Describe ρ] in
/-- A medium holds the one value that was stored, if its attempt has succeeded. -/
theorem Mirrors.holding_of_stored {before : Option Stored} {media : Media}
    (h : Mirrors i medium storage key before lines media) (one : stored i lines = [v])
    (encoded : Settings.encode v = .ok bytes)
    (accepted : ∀ a ∈ attempts i lines, a.succeeded = true) :
    media.holding medium key = some (.bytes bytes) := by
  have attempted := h.attempted
  simp only [one, encoded, Except.toOption, List.filterMap_cons, Option.map_some,
    List.filterMap_nil] at attempted
  obtain ⟨a, only, same⟩ := List.map_eq_singleton_iff.1 attempted
  have succeeded := accepted a (only ▸ List.mem_singleton_self a)
  cases same
  rw [h.holding, written, only]
  simp [succeeded]

omit [Inhabited ρ] [Text.Describe ρ] in
/-- Writing what is there changes nothing, whether or not it succeeds. -/
theorem Tried.holding_same {before after : Media}
    (h : Tried i medium storage key v before lines after) (has : before.Has medium)
    (encoded : Settings.encode v = .ok bytes)
    (holds : before.holding medium key = some (.bytes bytes)) :
    after.holding medium key = some (.bytes bytes) := by
  have attempted := h.attempted
  simp only [encoded, Except.toOption, Option.map_some, Option.toList_some] at attempted
  obtain ⟨a, only, same⟩ := List.map_eq_singleton_iff.1 attempted
  cases same
  rw [h.holding has, holds, written, only]
  cases succeeded : a.succeeded <;> simp [succeeded]

/-- A fresh load with this default gives `v`, without a fallback. -/
def World.LoadsAs (w : World ρ) (medium : Medium) (key : String) (default v : ρ) : Prop :=
  ∀ (nested : Nested (World ρ) (Step ρ)) (storage : String), ∃ w' lines,
    (loadRecord nested ⟨medium, some storage⟩ key default).perform w =
      (.ok w.records.size, w') ∧
    w'.journal.toList = w.journal.toList ++ lines ∧
    w'.valueOf w.records.size = v ∧ fallbacks lines = []

/-- A fresh load with this default gives `v`, without a fallback, and writes the very bytes that are
    there. -/
def World.ReloadsAs (w : World ρ) (medium : Medium) (key : String) (default v : ρ) : Prop :=
  ∀ (nested : Nested (World ρ) (Step ρ)) (storage : String), ∃ bytes w' lines,
    w.media.holding medium key = some (.bytes bytes) ∧
    (loadRecord nested ⟨medium, some storage⟩ key default).perform w =
      (.ok w.records.size, w') ∧
    w'.journal.toList = w.journal.toList ++ lines ∧
    w'.valueOf w.records.size = v ∧ fallbacks lines = [] ∧
    (attempts w.records.size lines).map (fun a => (a.key, a.storage, a.bytes)) =
      [(key, storage, bytes)] ∧
    w'.media.holding medium key = some (.bytes bytes)

omit [Text.Describe ρ] in
/-- One fresh load from a medium that holds the bytes from which `v` is read back. -/
theorem load_of_holding {default : ρ} (holds : w.media.holding medium key = some (.bytes bytes))
    (reads : ∃ stored, (w.media.read medium key).answer? = some (.ok stored))
    (encoded : Settings.encode v = .ok bytes) (nonempty : bytes.isEmpty = false)
    (decoded : Settings.decode default bytes = .ok v) (nested : Nested (World ρ) (Step ρ))
    (storage : String) :
    (loadRecord nested ⟨medium, some storage⟩ key default).Yields w fun number w' =>
      number = w.records.size ∧ ∃ lines, w.Begins w' number v lines ∧
        Tried number medium storage key v w.media lines w'.media ∧
        w'.media.holding medium key = some (.bytes bytes) := by
  obtain ⟨stored, reads⟩ := reads
  obtain rfl := Media.read_eq_holding holds reads
  have accepted : Settings.ofAnswer default (.ok (some bytes)) = .ok v := by
    rw [Settings.ofAnswer, nonempty]
    exact decoded
  refine (loadRecord_reads nested storage reads accepted).mono fun number w' => ?_
  rintro ⟨rfl, lines, begins, tried⟩
  exact ⟨rfl, lines, begins, tried, tried.holding_same (Media.has_of_holding holds) encoded holds⟩

omit [Text.Describe ρ] in
/-- Bytes that a medium holds are loaded as what is read from them. -/
theorem loadsAs_of_holding {default : ρ}
    (holds : w.media.holding medium key = some (.bytes bytes))
    (reads : ∃ stored, (w.media.read medium key).answer? = some (.ok stored))
    (nonempty : bytes.isEmpty = false) (decoded : Settings.decode default bytes = .ok v) :
    w.LoadsAs medium key default v := by
  intro nested storage
  obtain ⟨stored, reads⟩ := reads
  obtain rfl := Media.read_eq_holding holds reads
  have accepted : Settings.ofAnswer default (.ok (some bytes)) = .ok v := by
    rw [Settings.ofAnswer, nonempty]
    exact decoded
  obtain ⟨_, w', ran, rfl, lines, begins, tried⟩ := loadRecord_reads nested storage reads accepted
  exact ⟨w', lines, ran, begins.journal, begins.value.value, tried.noFallback⟩

omit [Text.Describe ρ] in
/-- What is read back from its bytes is loaded from a medium that holds them. -/
theorem reloadsAs_of_holding {default : ρ}
    (holds : w.media.holding medium key = some (.bytes bytes))
    (reads : ∃ stored, (w.media.read medium key).answer? = some (.ok stored))
    (encoded : Settings.encode v = .ok bytes) (nonempty : bytes.isEmpty = false)
    (decoded : Settings.decode default bytes = .ok v) : w.ReloadsAs medium key default v := by
  intro nested storage
  obtain ⟨_, w', ran, rfl, lines, begins, tried, still⟩ :=
    load_of_holding holds reads encoded nonempty decoded nested storage
  refine ⟨bytes, w', lines, holds, ran, begins.journal, begins.value.value, tried.noFallback, ?_,
    still⟩
  rw [tried.attempted, encoded]
  rfl

/-- However a record that is tended was set to `v`: if nobody has changed it again in the same step,
    and the attempt to write it has succeeded, a fresh load with this default gives `v`. -/
def SetSurvives (v default : ρ) : Prop :=
  ∀ (w w' : World ρ) (name storage key : String) (i : Nat) (medium : Medium) (budget : Nat)
    (action : Observable.Action (Step ρ) ρ)
    (o : Language.Outcome (Step ρ) (Reply ρ) (Incident ρ)),
    w.Tended name storage key i medium → action.Sets (w.valueOf i) v →
    (language ρ).runStep budget (.settings name (.value action)) w = (o, w') →
    (stored i o.events).length = 1 → (∀ a ∈ attempts i o.events, a.succeeded = true) →
    (∃ stored, (w'.media.read medium key).answer? = some (.ok stored)) →
    w'.ReloadsAs medium key default v

/-- However a record that is tended was set to `v`: if nobody has changed it again in the same step,
    and the attempt to write it has succeeded, the medium holds the bytes of `v`. -/
theorem holding_of_sets {action : Observable.Action (Step ρ) ρ}
    {o : Language.Outcome (Step ρ) (Reply ρ) (Incident ρ)}
    (encoded : Settings.encode v = .ok bytes) (tended : w.Tended name storage key i medium)
    (sets : action.Sets (w.valueOf i) v)
    (ran : (language ρ).runStep budget (.settings name (.value action)) w = (o, w'))
    (once : (stored i o.events).length = 1)
    (accepted : ∀ a ∈ attempts i o.events, a.succeeded = true) :
    w'.media.holding medium key = some (.bytes bytes) := by
  have kept := tended.mirroring
  have one := stored_of_sets kept sets ran once
  have tends : Tends name (.settings name (.value action)) := by
    refine .settings _ ?_
    cases sets <;> exact nofun
  obtain ⟨rfl, rfl⟩ := Prod.mk.inj (Language.runStep_eq .. ▸ ran)
  have after := (heeds_mirroring.exec (P := fun _ => True) (fun _ _ => trivial) budget _ tends w
    kept).sound
  exact after.since.holding_of_stored one encoded accepted

/-- A value survives if it is read back from its bytes. -/
theorem setSurvives_of_decode {default : ρ} (encoded : Settings.encode v = .ok bytes)
    (nonempty : bytes.isEmpty = false) (decoded : Settings.decode default bytes = .ok v) :
    SetSurvives v default :=
  fun _ _ _ _ _ _ _ _ _ _ tended sets ran once accepted reads =>
    reloadsAs_of_holding (holding_of_sets encoded tended sets ran once accepted) reads encoded
      nonempty decoded

/-- Reading undoes writing.  Whatever a medium held: after a record has been set to settings of a
    user that last, and the write has succeeded, a fresh load gives these very settings, with any
    default that has no further fields.  So it is with a layout, whatever the default. -/
theorem set_survives_reload :
    (∀ (u : UserSettings) (limit : Int64), u.Lasting → SetSurvives u ⟨limit, []⟩) ∧
      ∀ l default : Layout, SetSurvives l default := by
  constructor
  · intro u limit lasting
    exact setSurvives_of_decode u.encode_eq u.isEmpty_bytes
      (UserSettings.decode_bytes lasting limit)
  · intro l default
    exact setSurvives_of_decode l.encode_eq l.isEmpty_bytes (Layout.decode_bytes l default)

/-- Settings with the least limit and a nested field, set on a record that could not be read. -/
theorem set_survives_reload_least :
    let u : UserSettings := ⟨.minValue, [("a", .arr [.int 18446744073709551615, .str "\x00"])]⟩
    let opened := ((language UserSettings).run 1
      [.medium "m" (.openAs (.memory [("k", ⟨#[123]⟩)]))] (World.start (.empty []))).2
    let loaded := ((language UserSettings).runStep 1 (.load "r" "m" "k" .initial) opened).2
    u.Lasting ∧
      ((language UserSettings).runStep 1 (.settings "r" (.value (.set u))) loaded).2.ReloadsAs
        (.region 0) "k" ⟨7, []⟩ u := by
  intro u opened loaded
  have lasting : u.Lasting := by
    constructor
    · exact List.pairwise_singleton ..
    · rfl
    · intro f hf
      obtain rfl := List.mem_singleton.1 hf
      refine .arr fun v hv => ?_
      rcases List.mem_cons.1 hv with rfl | hv
      · exact .int ⟨by decide, by decide⟩
      · exact List.mem_singleton.1 hv ▸ .str _
    · intro f hf
      obtain rfl := List.mem_singleton.1 hf
      refine .arr fun v hv => ?_
      rcases List.mem_cons.1 hv with rfl | hv
      · exact .int _
      · exact List.mem_singleton.1 hv ▸ .str _
  have loads : (language UserSettings).runStep 1 (.load "r" "m" "k" .initial) opened =
      (⟨.ok (.loaded .initial),
        ((language UserSettings).runStep 1 (.load "r" "m" "k" .initial) opened).1.events⟩,
        loaded) := rfl
  have tended : loaded.Tended "r" "m" "k" 0 (.region 0) :=
    .run (.empty []) 1 _ [] loads rfl rfl nofun
  have survives : SetSurvives u ⟨7, []⟩ := set_survives_reload.1 u 7 lasting
  refine ⟨lasting, survives loaded _ "r" "m" "k" 0 (.region 0) 1 (.set u) _ tended (.set _ _)
    (Prod.eta _).symm ?_ ?_ (Media.read_region _ _ _)⟩
  · simp only [loaded, opened, u]
    decide +kernel
  · simp only [loaded, opened, u]
    decide +kernel

end Session

end LiveState
