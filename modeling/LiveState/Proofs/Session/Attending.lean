import LiveState.Proofs.Session.Attended

/-! # Attending contexts

What every step of a session does to contexts that are attended: they stay so, at whatever depth and
however the steps end.
-/

namespace LiveState.Session

open Course

variable {ρ : Type} [Inhabited ρ] {files : FileTree}

/-! ## The turn of the subscriber that writes back -/

/-- A write is shown before it begins, if it is to be shown. -/
def Access.announce (a : Access) (key : String) (bytes : ByteArray) (w : World ρ) : World ρ :=
  match a.shownAs with
  | none => w
  | some name => w.note (.writing key name bytes)

section Turn

variable {w : World ρ} {a : Access} {i j : Nat} {key : String} {bytes : ByteArray} {m : Media}
  {u v : UserSettings}

omit [Inhabited ρ] in
@[simp] theorem contexts_announce : (a.announce key bytes w).contexts = w.contexts := by
  unfold Access.announce
  split <;> rfl

omit [Inhabited ρ] in
@[simp] theorem records_announce : (a.announce key bytes w).records = w.records := by
  unfold Access.announce
  split <;> rfl

omit [Inhabited ρ] in
@[simp] theorem contextNames_announce : (a.announce key bytes w).contextNames = w.contextNames := by
  unfold Access.announce
  split <;> rfl

omit [Inhabited ρ] in
theorem perform_store_write {r : Response Unit} (wrote : w.media.write a.medium key bytes = (r, m)) :
    (a.store.write key bytes).perform w =
      (respond r).perform { a.announce key bytes w with media := m } := by
  obtain ⟨medium, _ | name⟩ := a
  · simp only [Access.store, writeMedium, Act.perform_bind, Act.perform_view, wrote]
    rfl
  · have wrote' : (w.note (.writing key name bytes)).media.write medium key bytes = (r, m) := wrote
    simp only [Access.store, writeMedium, Act.perform_bind, Act.perform_modify, Act.perform_view,
      wrote']
    rfl

omit [Inhabited ρ] in
/-- Settings have always a text; whether it is written is up to the medium. -/
theorem perform_writeBack_settings {r : Response Unit}
    (under : (w.contextAt j).settings.settings.key = settingsKey)
    (wrote : w.media.write a.medium settingsKey v.bytes = (r, m)) :
    ((contextSettingsSite a j).writeBack v).perform w =
      (do
        match ← respond r with
        | .ok () => pure ()
        | .error .unavailable => (contextSettingsSite a j).tell (.keptInMemory settingsKey)
        | .error e => (contextSettingsSite a j).tell (.notPersisted settingsKey e)).perform
        { a.announce settingsKey v.bytes w with media := m } := by
  have looked : ((contextSettingsSite a j).look (·.key)).perform w = (.ok settingsKey, w) :=
    congrArg (fun key => (Except.ok key, w)) under
  refine (Act.perform_bind_of_ok looked).trans ?_
  rw [UserSettings.encode_eq]
  exact Act.perform_bind_of_eq (perform_store_write wrote)

/-- The lines of the turn of the subscriber that writes back, before it writes. -/
def World.turnOf (w : World ρ) (a : Access) (j : Nat) (pass : Option Nat) (v : UserSettings) :
    World ρ :=
  { a.announce settingsKey v.bytes (w.note (.contextSettings j (.value (.called pass 0 v)))) with
    media := (w.media.write a.medium settingsKey v.bytes).2 }

/-- As soon as the subscriber that writes back has its turn, nothing is certain about the media that
    share its table. -/
theorem not_shares_of_called {pass : Option Nat} (access : w.contextAccess j = a)
    (filed : ((w.note (.contextSettings j (.value (.called pass 0 v)))).filing i).filed = some u) :
    i ≠ j ∧ ¬ a.medium.Shares (w.contextAccess i).medium := by
  rw [World.note, World.filing_record] at filed
  by_cases here : i = j
  · subst here
    simp [Filing.next] at filed
  · simp only [Filing.next, if_neg (Ne.symm here)] at filed
    refine ⟨here, fun shares => ?_⟩
    obtain ⟨apart, -⟩ := Filing.filed_of_spoilIf filed
    exact apart (decide_eq_true (by rw [World.mediumOf, access]; exact shares))

omit [Inhabited ρ] in
theorem Access.announce_cases (a : Access) (key : String) (bytes : ByteArray) (w : World ρ) :
    a.announce key bytes w = w ∨
      ∃ name, a.announce key bytes w = w.note (.writing key name bytes) := by
  obtain ⟨medium, _ | name⟩ := a
  · exact .inl rfl
  · exact .inr ⟨name, rfl⟩

/-- Until the subscriber that writes back returns, all contexts stay attended. -/
theorem World.Attended.turnOf (h : w.Attended files) (access : w.contextAccess j = a)
    (pass : Option Nat) (v : UserSettings) : (w.turnOf a j pass v).Attended files := by
  have called : (w.note (.contextSettings j (.value (.called pass 0 v)))).Attended files :=
    h.record (by simp [Modest])
  unfold World.turnOf
  rcases a.announce_cases settingsKey v.bytes
    (w.note (.contextSettings j (.value (.called pass 0 v)))) with same | ⟨name, same⟩
  · rw [same]
    exact called.write a.medium settingsKey v.bytes fun i u filed =>
      .inr (not_shares_of_called access filed).2
  · rw [same]
    have announced := called.record (e := .happened (.writing settingsKey name v.bytes))
      (by simp [Modest])
    exact announced.write a.medium settingsKey v.bytes fun i u filed =>
      .inr (not_shares_of_called access (World.filed_record (by simp) filed)).2

theorem filing_turnOf (w : World ρ) (a : Access) (j : Nat) (pass : Option Nat) (v : UserSettings) :
    ((w.turnOf a j pass v).filing j).filed = none ∧
      ∀ u, ((w.turnOf a j pass v).filing j).writing = some u → u = v := by
  have called : ((w.note (.contextSettings j (.value (.called pass 0 v)))).filing j) =
      ⟨some (.contextSettings j), (w.filing j).fellBack,
        if (w.filing j).fellBack && pass.isNone then none else some v, none⟩ := by
    rw [World.note, World.filing_record]
    simp [Filing.next, Filing.hear]
  have turn : (w.turnOf a j pass v).filing j =
      (a.announce settingsKey v.bytes
        (w.note (.contextSettings j (.value (.called pass 0 v))))).filing j := rfl
  have settled : (w.turnOf a j pass v).filing j =
      (w.note (.contextSettings j (.value (.called pass 0 v)))).filing j := by
    rw [turn]
    rcases a.announce_cases settingsKey v.bytes
      (w.note (.contextSettings j (.value (.called pass 0 v)))) with same | ⟨name, same⟩
    · rw [same]
    · rw [same, World.note, World.filing_record, called]
      simp [Filing.next, Filing.spoilIf]
  rw [settled, called]
  refine ⟨rfl, fun u writing => ?_⟩
  cases skips : (w.filing j).fellBack && pass.isNone with
  | true => simp [skips] at writing
  | false => simpa [skips] using writing.symm

/-- What remains of a turn of the subscriber that writes back. -/
structure World.TookTurn (files : FileTree) (w : World ρ) (a : Access) (j : Nat) (v : UserSettings)
    (u : World ρ) : Prop where
  contexts : u.contexts = w.contexts
  records : u.records = w.records
  names : u.contextNames = w.contextNames
  media : u.media = (w.media.write a.medium settingsKey v.bytes).2
  attended : u.Attended files
  filed : ∀ v', (u.filing j).filed = some v' → (u.contextAt j).Filed u.media v'

theorem World.TookTurn.onward {u : World ρ} (h : w.TookTurn files a j v u) : w.Onward u :=
  .of_eq h.contexts h.records

/-- What the subscriber that writes back was given to write counts as written when it returns. -/
theorem World.TookTurn.returned {u : World ρ} (h : u.Attended files) (small : j < u.contexts.size)
    (contexts : u.contexts = w.contexts) (records : u.records = w.records)
    (names : u.contextNames = w.contextNames)
    (media : u.media = (w.media.write a.medium settingsKey v.bytes).2) (pass : Option Nat)
    (done : ∀ v', (u.filing j).writing = some v' → (u.contextAt j).Filed u.media v') :
    w.TookTurn files a j v (u.note (.contextSettings j (.value (.returned pass 0)))) where
  contexts := contexts
  records := records
  names := names
  media := media
  attended := h.returned small pass done
  filed v' filed := by
    rw [World.filing_returned] at filed
    exact done v' filed

theorem filed_turnOf (has : w.media.Has a.medium) (access : w.contextAccess j = a)
    (current : w.settingsOf j = v) (pass : Option Nat)
    (outcome : w.media.write a.medium settingsKey v.bytes = (.answered (), m)) :
    ∀ v', ((w.turnOf a j pass v).filing j).writing = some v' →
      ((w.turnOf a j pass v).contextAt j).Filed (w.turnOf a j pass v).media v' := by
  intro v' written
  obtain rfl := (filing_turnOf w a j pass v).2 v' written
  have contexts : (w.turnOf a j pass v').contexts = w.contexts := contexts_announce
  have same : (w.turnOf a j pass v').contextAt j = w.contextAt j :=
    congrArg (·.getD j .blank) contexts
  have holds := Media.holding_of_answered has outcome
  rw [same, World.turnOf, outcome]
  refine ⟨current, ?_⟩
  rw [← access] at holds
  exact holds

/-- What is told of a write that failed. -/
def writeFailure : StorageError → Notice
  | .unavailable => .keptInMemory settingsKey
  | e => .notPersisted settingsKey e

/-- The world after the turn of the subscriber that writes back, whose write has ended so. -/
def World.afterTurn (w : World ρ) (a : Access) (j : Nat) (pass : Option Nat) (v : UserSettings) :
    Response Unit → World ρ
  | .answered _ => (w.turnOf a j pass v).note (.contextSettings j (.value (.returned pass 0)))
  | .failed e =>
    ((w.turnOf a j pass v).note (.contextSettings j (.notice (writeFailure e)))).note
      (.contextSettings j (.value (.returned pass 0)))
  | .panicked => (w.turnOf a j pass v).note (.contextSettings j (.value (.faulted pass 0)))

omit [Inhabited ρ] in
/-- The turn of the subscriber that writes back never fails, whatever the medium does. -/
theorem perform_turn (attended : (w.contextAt j).Attended w.media) {r : Response Unit}
    (outcome : w.media.write a.medium settingsKey v.bytes = (r, m)) (pass : Option Nat)
    (nested : Nested (World ρ) (Step ρ)) :
    ((contextSettingsSite a j).value.deliver ((contextSettingsSite a j).call nested) pass 0
        v).perform w = (.ok (), w.afterTurn a j pass v r) := by
  have deliver := Settings.Site.perform_deliver nested (s := contextSettingsSite a j)
    attended.keeper.keeper pass v
  have wrote := perform_writeBack_settings (a := a) (j := j)
    (w := w.note (.contextSettings j (.value (.called pass 0 v)))) attended.key outcome
  have turn : { a.announce settingsKey v.bytes
      (w.note (.contextSettings j (.value (.called pass 0 v)))) with media := m } =
        w.turnOf a j pass v := by rw [World.turnOf, outcome]
  have called : (contextSettingsSite a j).value.note (.called pass 0 v) w =
      w.note (.contextSettings j (.value (.called pass 0 v))) := rfl
  rw [deliver, called, wrote, turn]
  rcases r with _ | e | _
  · rfl
  · cases e <;> rfl
  · rfl

/-- After the turn of the subscriber that writes back all contexts are still attended. -/
theorem World.Attended.turn (h : w.Attended files) (small : j < w.contexts.size)
    (access : w.contextAccess j = a) (current : w.settingsOf j = v) (pass : Option Nat) :
    ∃ u, w.TookTurn files a j v u ∧ ∀ nested,
      ((contextSettingsSite a j).value.deliver ((contextSettingsSite a j).call nested) pass 0
        v).perform w = (.ok (), u) := by
  have here := h.attended j small
  have attended := h.turnOf access pass v
  have contexts : (w.turnOf a j pass v).contexts = w.contexts := contexts_announce
  have records : (w.turnOf a j pass v).records = w.records := records_announce
  have names : (w.turnOf a j pass v).contextNames = w.contextNames := contextNames_announce
  have small' : j < (w.turnOf a j pass v).contexts.size := by rwa [contexts]
  rcases outcome : w.media.write a.medium settingsKey v.bytes with ⟨r, m⟩
  refine ⟨_, ?_, perform_turn here outcome pass⟩
  cases r with
  | answered _ =>
    exact .returned attended small' contexts records names rfl pass
      (filed_turnOf (access ▸ here.has) access current pass outcome)
  -- A failure is told before the return, so that nothing counts as written.
  | failed e =>
    refine .returned (attended.record (by simp [Modest])) small' contexts records names rfl pass
      fun v' written => ?_
    rw [World.filing_record] at written
    simp [Filing.next] at written
  | panicked =>
    refine ⟨contexts, records, names, rfl, attended.record (by simp [Modest]),
      fun v' filed => ?_⟩
    have before := World.filed_record (by simp) filed
    rw [(filing_turnOf w a j pass v).1] at before
    cases before

end Turn

/-! ## New contexts -/

section Making

variable {w : World ρ} {a : Access} {v : UserSettings}

/-- A context that nobody has heard of but the subscriber that writes back. -/
def Context.kept {σ : Type} (a : Access) (v : UserSettings) : Context σ :=
  ⟨.new .panels, ⟨⟨settingsKey, .initial, (Observable.new v).register (.keeper false)⟩, a⟩⟩

theorem Context.kept_attended {σ : Type} {m : Media} (has : m.Has a.medium) (v : UserSettings) :
    (Context.kept (σ := σ) a v).Attended m :=
  ⟨Observable.KeeperFirst.new v false, rfl, has, rfl⟩

/-- A further context is there, which has no name yet. -/
structure World.Gained (files : FileTree) (w u : World ρ) : Prop where
  onward : w.Onward u
  size : u.contexts.size = w.contexts.size + 1
  names : u.contextNames = w.contextNames
  attended : u.Attended files
  filed : ∀ v, (u.filing w.contexts.size).filed = some v →
    (u.contextAt w.contexts.size).Filed u.media v

theorem modify_push_self {κ : Type} (xs : Array κ) (x : κ) (f : κ → κ) :
    (xs.push x).modify xs.size f = xs.push (f x) := by
  apply Array.ext
  · simp
  · intro i small small'
    rw [Array.size_push] at small'
    simp only [Array.getElem_modify, Array.getElem_push]
    split <;> split <;> first | rfl | omega

/-- A context before its settings are kept. -/
def Context.unkept {σ : Type} (a : Access) (v : UserSettings) : Context σ :=
  ⟨.new .panels, .new settingsKey .initial v, a⟩

/-- The world after context `w.contexts.size` has been put in, with a subscriber. -/
def World.joined (w : World ρ) (a : Access) (v : UserSettings)
    (l : Listener (Step ρ) UserSettings) : World ρ :=
  { w.note (.contextSettings w.contexts.size (.value (.registered 0))) with
    contexts := w.contexts.push
      ⟨.new .panels, ⟨⟨settingsKey, .initial, (Observable.new v).register l⟩, a⟩⟩ }

omit [Inhabited ρ] in
theorem perform_keep (w : World ρ) (a : Access) (v : UserSettings) (skip : Bool)
    (nested : Nested (World ρ) (Step ρ)) :
    ((contextSettingsSite a w.contexts.size).keep nested skip).perform
        { w with contexts := w.contexts.push (.unkept a v) } =
      ((contextSettingsSite a w.contexts.size).value.deliver
        ((contextSettingsSite a w.contexts.size).call nested) none 0 v).perform
          (w.joined a v (.keeper skip)) := by
  have fresh : (contextSettingsSite a w.contexts.size).value.cell
      ({ w with contexts := w.contexts.push (.unkept a v) } : World ρ) = .new v := by
    show ((w.contexts.push (.unkept a v)).getD w.contexts.size .blank).settings.settings.value = _
    rw [getD_push_self]
    rfl
  have joined : (contextSettingsSite a w.contexts.size).value.enlisted (.keeper skip)
      ({ w with contexts := w.contexts.push (.unkept a v) } : World ρ) =
        w.joined a v (.keeper skip) := by
    unfold Place.enlisted
    rw [fresh]
    show World.note _ { w with contexts := (w.contexts.push (.unkept a v)).modify _ _ } = _
    rw [modify_push_self]
    rfl
  have register : (contextSettingsSite a w.contexts.size).value.cell
      ((contextSettingsSite a w.contexts.size).value.adjust (·.register (.keeper skip))
        { w with contexts := w.contexts.push (.unkept a v) }) =
      ((contextSettingsSite a w.contexts.size).value.cell
        ({ w with contexts := w.contexts.push (.unkept a v) } : World ρ)).register (.keeper skip) := by
    rw [fresh]
    show (((w.contexts.push (.unkept a v)).modify _ _).getD
      w.contexts.size .blank).settings.settings.value = _
    rw [modify_push_self, getD_push_self]
    rfl
  -- The new subscriber is the first one, and so the first call is its turn in the joined world.
  simp only [Settings.Site.keep, Act.perform_bind]
  rw [Place.perform_subscribe_of_register register (fun _ _ => rfl) (by rw [fresh]; rfl), fresh,
    joined, Act.perform_map]
  have first : (Observable.new v : Observable UserSettings
    (Listener (Step ρ) UserSettings)).nextId = 0 := rfl
  have current : (Observable.new v : Observable UserSettings
    (Listener (Step ρ) UserSettings)).value = v := rfl
  rw [first, current]
  rcases ((contextSettingsSite a w.contexts.size).value.deliver
    ((contextSettingsSite a w.contexts.size).call nested) none 0 v).perform
      (w.joined a v (.keeper skip)) with ⟨_ | _, _⟩ <;> rfl

theorem World.Attended.joined (h : w.Attended files) (has : w.media.Has a.medium) (v : UserSettings) :
    (w.joined a v (.keeper false)).Attended files := by
  have noted : (w.note (.contextSettings w.contexts.size (.value (.registered 0)))).Attended files :=
    h.record (by simp [Modest])
  exact noted.push (Context.kept_attended (σ := Step ρ) has v)

omit [Inhabited ρ] in
/-- The first value of a context that took the default is let go. -/
theorem perform_keep_skipping (w : World ρ) (a : Access) (v : UserSettings)
    (nested : Nested (World ρ) (Step ρ)) :
    ((contextSettingsSite a w.contexts.size).keep nested true).perform
        { w with contexts := w.contexts.push (.unkept a v) } =
      (.ok (), ((w.joined a v (.keeper false)).note
        (.contextSettings w.contexts.size (.value (.called none 0 v)))).note
          (.contextSettings w.contexts.size (.value (.returned none 0)))) := by
  have found : ((contextSettingsSite a w.contexts.size).value.cell
      (w.joined a v (.keeper true))).callback? 0 = some (.keeper true) := by
    show ((w.contexts.push _).getD w.contexts.size .blank).settings.settings.value.callback? 0 = _
    rw [getD_push_self]
    rfl
  have let_go : (contextSettingsSite a w.contexts.size).value.adjust
      (·.adjustCallback 0 fun _ => .keeper false)
        ((contextSettingsSite a w.contexts.size).value.note (.called none 0 v)
          (w.joined a v (.keeper true))) =
      (w.joined a v (.keeper false)).note
        (.contextSettings w.contexts.size (.value (.called none 0 v))) := by
    have kept := modify_push_self w.contexts
      ⟨.new .panels, ⟨⟨settingsKey, .initial, (Observable.new v).register (.keeper true)⟩, a⟩⟩
      fun c => { c with settings := { c.settings with settings := { c.settings.settings with
        value := c.settings.settings.value.adjustCallback 0 fun _ => .keeper false } } }
    exact congrArg (fun contexts => { (w.joined a v (.keeper false)).note
      (.contextSettings w.contexts.size (.value (.called none 0 v))) with
        contexts := contexts }) kept
  rw [perform_keep, Place.perform_deliver found]
  exact congrArg (fun u => (Except.ok (), World.note (.contextSettings w.contexts.size
    (.value (.returned none 0))) u)) let_go

/-- Settings that were read are written at once, and else the default is let go. -/
theorem World.Attended.keep (h : w.Attended files) (has : w.media.Has a.medium) (v : UserSettings)
    (skip : Bool) (fellBack : skip = true → (w.filing w.contexts.size).fellBack = true) :
    ∃ u, w.Gained files u ∧ ∀ nested,
      ((contextSettingsSite a w.contexts.size).keep nested skip).perform
        { w with contexts := w.contexts.push (.unkept a v) } = (.ok (), u) := by
  have joined := h.joined has v
  have size : (w.joined a v (.keeper false)).contexts.size = w.contexts.size + 1 :=
    Array.size_push ..
  have small : w.contexts.size < (w.joined a v (.keeper false)).contexts.size := by
    rw [size]
    exact Nat.lt_succ_self _
  have there : (w.joined a v (.keeper false)).contextAt w.contexts.size = .kept a v :=
    getD_push_self ..
  have grown := World.Onward.push w (.kept a v)
  have onward : w.Onward (w.joined a v (.keeper false)) :=
    ⟨grown.size, grown.access, grown.settings, grown.records⟩
  -- A record that was read is written by the first call; a default is not, for which nothing may be
  -- held to have been written: that is what having fallen back says.
  cases skip with
  | false =>
    obtain ⟨u, took, ran⟩ := joined.turn (a := a) (v := v) small
      (congrArg (·.settings.access) there) (congrArg (·.settings.settings.value.value) there) none
    refine ⟨u, ⟨onward.trans took.onward, ?_, took.names, took.attended, took.filed⟩,
      fun nested => ?_⟩
    · rw [took.contexts, size]
    · rw [perform_keep, ran]
  | true =>
    have called : ((w.joined a v (.keeper false)).note
        (.contextSettings w.contexts.size (.value (.called none 0 v)))).Attended files :=
      joined.record (by simp [Modest])
    have unwritten : (((w.joined a v (.keeper false)).note
        (.contextSettings w.contexts.size (.value (.called none 0 v)))).filing
          w.contexts.size).writing = none := by
      have before : ((w.joined a v (.keeper false)).filing w.contexts.size).fellBack = true := by
        refine (World.firmer_push (w.note (.contextSettings w.contexts.size
          (.value (.registered 0)))) (.kept a v) w.contexts.size).fellBack.trans ?_
        rw [World.note, World.filing_record]
        exact fellBack rfl
      rw [World.note, World.filing_record]
      simp [Filing.next, before]
    refine ⟨_, ?_, perform_keep_skipping w a v⟩
    refine ⟨onward.trans (.of_eq rfl rfl), size, rfl, called.returned small none ?_, ?_⟩
    · intro v' written
      rw [unwritten] at written
      cases written
    · intro v' filed
      rw [World.filing_returned, unwritten] at filed
      cases filed

end Making

end LiveState.Session
