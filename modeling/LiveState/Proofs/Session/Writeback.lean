import LiveState.Proofs.Session.Attempts
import LiveState.Proofs.Session.Keeping

/-! # Writing back

As long as nobody does anything but steps on a record, its medium mirrors it: the first subscriber
writes every value before anybody else hears of it, so that between two steps, at whatever depth,
everything that was stored has been tried to be written, and nothing else.
-/

namespace LiveState.Session

open Course

variable {ρ : Type} [Inhabited ρ] [Settings.Record ρ]

def World.since (start w : World ρ) : List (Line ρ) :=
  (w.journal.extract start.journal.size).toList

omit [Inhabited ρ] [Settings.Record ρ] in
theorem World.since_eq {start w : World ρ} {lines : List (Line ρ)}
    (h : w.journal.toList = start.journal.toList ++ lines) : start.since w = lines := by
  have size : w.journal.size = start.journal.size + lines.length := by
    simpa using congrArg List.length h
  rw [World.since, Array.toList_extract, h]
  simp [List.extract, size]

/-- Record `i` is kept, and its medium has mirrored it since `start`. -/
structure World.Mirroring (start : World ρ) (name : String) (i : Nat) (medium : Medium)
    (storage key : String) (w : World ρ) : Prop where
  named : w.recordNames.get? name = some i
  keeps : w.Keeps name i medium storage key
  lines : ∃ lines, w.journal.toList = start.journal.toList ++ lines ∧ Idle lines ∧
    Mirrors i medium storage key (start.media.holding medium key) lines w.media

/-- The course on which a medium mirrors a record. -/
def mirroring (start : World ρ) (name : String) (i : Nat) (medium : Medium)
    (storage key : String) : Course (World ρ) :=
  Course.invariant (World.Mirroring start name i medium storage key)

variable {start w u : World ρ} {name storage key : String} {i : Nat} {medium : Medium}

namespace World.Mirroring

theorem still (h : Mirroring start name i medium storage key w)
    (keeps : u.Keeps name i medium storage key) (names : u.recordNames = w.recordNames)
    (journal : u.journal = w.journal)
    (holding : u.media.holding medium key = w.media.holding medium key) :
    Mirroring start name i medium storage key u := by
  obtain ⟨lines, old, idle, mirrors⟩ := h.lines
  refine ⟨?_, keeps, lines, ?_, idle, mirrors.attempted, ?_⟩
  · rw [names]
    exact h.named
  · rw [journal]
    exact old
  · rw [holding]
    exact mirrors.holding

theorem further (h : Mirroring start name i medium storage key w)
    (keeps : u.Keeps name i medium storage key) (more : List (Line ρ))
    (names : u.recordNames = w.recordNames)
    (journal : u.journal.toList = w.journal.toList ++ more) (idle : Idle more) (some : more ≠ [])
    (mirrors : Mirrors i medium storage key (w.media.holding medium key) more u.media) :
    Mirroring start name i medium storage key u := by
  obtain ⟨lines, old, idle', mirrors'⟩ := h.lines
  -- The earlier lines are idle, so that the later ones decide about none of their attempts.
  refine ⟨?_, keeps, lines ++ more, ?_, idle_append idle some, mirrors'.append idle' mirrors⟩
  · rw [names]
    exact h.named
  · rw [journal, old, List.append_assoc]

theorem since (h : Mirroring start name i medium storage key w) :
    Mirrors i medium storage key (start.media.holding medium key) (start.since w) w.media := by
  obtain ⟨lines, old, -, mirrors⟩ := h.lines
  rwa [since_eq old]

/-- Mirroring begins at any time at which a record is kept. -/
theorem self (named : w.recordNames.get? name = some i)
    (keeps : w.Keeps name i medium storage key) :
    Mirroring w name i medium storage key w :=
  ⟨named, keeps, [], by simp, fun _ _ _ => by simp, .nil⟩

end World.Mirroring

/-! ## What does not matter -/

theorem mirroring_record {e : Line ρ}
    (writing : ∀ key storage bytes, e ≠ .happened (.writing key storage bytes))
    (stores : stored? i e = none) :
    (mirroring start name i medium storage key).Admits (World.record e) := by
  intro w h
  refine ⟨h.further (h.keeps.record e) [e] rfl ?_ (idle_singleton writing) (by simp)
    (.other writing stores rfl), trivial⟩
  exact Array.toList_push

theorem mirroring_note (j : Nat) {o : Occurrence ρ} (h : History.stored? o = none) :
    (mirroring start name i medium storage key).Admits
      (World.note (.settings j (.value o))) := by
  refine mirroring_record (by simp) ?_
  cases o with
  | committed number v => cases h
  | _ => rfl

theorem mirroring_adjust (a : Access)
    {f : Observable ρ (Listener (Step ρ) ρ) → Observable ρ (Listener (Step ρ) ρ)}
    (hf : ∀ o : Observable ρ (Listener (Step ρ) ρ),
      o.KeeperFirst (Tends name) → (f o).KeeperFirst (Tends name)) :
    (mirroring start name i medium storage key).Admits ((recordSite a i).value.adjust f) :=
  fun _ h => ⟨h.still (.adjust h.keeps.toHosts a (hf _ h.keeps.value)) rfl rfl rfl, trivial⟩

theorem mirroring_adjust_of_ne (a : Access) {j : Nat} (ne : j ≠ i)
    (f : Observable ρ (Listener (Step ρ) ρ) → Observable ρ (Listener (Step ρ) ρ)) :
    (mirroring start name i medium storage key).Admits ((recordSite a j).value.adjust f) :=
  fun _ h => ⟨h.still (h.keeps.adjust_of_ne a ne f) rfl rfl rfl, trivial⟩

/-! ## The turn of the subscriber that writes back -/

section Turn

variable {v : ρ} {bytes : ByteArray} {m : Media}

def World.keyOf (w : World ρ) (i : Nat) : String := (w.records.getD i .blank).settings.key

def World.writing (w : World ρ) (storage key : String) (bytes : ByteArray) (m : Media) : World ρ :=
  { w.note (.writing key storage bytes) with media := m }

theorem writeBack_unserialized {e : Settings.ShapeError} (h : Settings.encode v = .error e) :
    ((recordSite ⟨medium, some storage⟩ i).writeBack v).perform w =
      (.ok (), w.note (.settings i (.notice (.notSerialized (w.keyOf i) e)))) := by
  simp only [Settings.Site.writeBack, Settings.Site.look, Act.perform_bind, Act.perform_view, h]
  rfl

omit [Inhabited ρ] [Settings.Record ρ] in
theorem perform_write {r : Response Unit} (wrote : w.media.write medium key bytes = (r, m)) :
    ((Access.mk medium (some storage)).store.write key bytes).perform w =
      (respond r).perform (w.writing storage key bytes m) := by
  have wrote' : (w.note (.writing key storage bytes)).media.write medium key bytes = (r, m) :=
    wrote
  simp only [Access.store, writeMedium, Act.perform_bind, Act.perform_modify, Act.perform_view,
    wrote']
  rfl

theorem perform_writeBack {r : Response Unit} (h : Settings.encode v = .ok bytes)
    (wrote : w.media.write medium (w.keyOf i) bytes = (r, m)) :
    ((recordSite ⟨medium, some storage⟩ i).writeBack v).perform w =
      (do
        match ← respond r with
        | .ok () => pure ()
        | .error .unavailable =>
          (recordSite ⟨medium, some storage⟩ i).tell (.keptInMemory (w.keyOf i))
        | .error e =>
          (recordSite ⟨medium, some storage⟩ i).tell (.notPersisted (w.keyOf i) e)).perform
        (w.writing storage (w.keyOf i) bytes m) := by
  have written : ((recordSite ⟨medium, some storage⟩ i).store.write
      ((recordSite ⟨medium, some storage⟩ i).settings w).key bytes).perform w =
      (respond r).perform (w.writing storage (w.keyOf i) bytes m) := perform_write wrote
  simp only [Settings.Site.writeBack, Settings.Site.look, Act.perform_bind, Act.perform_view, h,
    written]
  rfl

theorem writeBack_answered (h : Settings.encode v = .ok bytes)
    (wrote : w.media.write medium (w.keyOf i) bytes = (.answered (), m)) :
    ((recordSite ⟨medium, some storage⟩ i).writeBack v).perform w =
      (.ok (), w.writing storage (w.keyOf i) bytes m) := by
  rw [perform_writeBack h wrote]
  rfl

theorem writeBack_failed {e : StorageError} (h : Settings.encode v = .ok bytes)
    (wrote : w.media.write medium (w.keyOf i) bytes = (.failed e, m)) :
    ∃ n, fallback? (.happened (.settings i (.notice n)) : Line ρ) = none ∧
      ((recordSite ⟨medium, some storage⟩ i).writeBack v).perform w =
        (.ok (), (w.writing storage (w.keyOf i) bytes m).note (.settings i (.notice n))) := by
  rw [perform_writeBack h wrote]
  cases e <;> exact ⟨_, rfl, rfl⟩

theorem writeBack_panicked (h : Settings.encode v = .ok bytes)
    (wrote : w.media.write medium (w.keyOf i) bytes = (.panicked, m)) :
    ((recordSite ⟨medium, some storage⟩ i).writeBack v).perform w =
      (.error .panic, w.writing storage (w.keyOf i) bytes m) := by
  rw [perform_writeBack h wrote]
  rfl

/-- From `w` on only the journal and the media have changed. -/
structure World.Turned (w u : World ρ) (more : List (Line ρ)) : Prop where
  records : u.records = w.records
  names : u.recordNames = w.recordNames
  subscriptions : u.subscriptions = w.subscriptions
  regions : w.media.regions.size ≤ u.media.regions.size
  journal : u.journal.toList = w.journal.toList ++ more

namespace World.Turned

variable {more : List (Line ρ)}

omit [Inhabited ρ] [Settings.Record ρ] in
theorem refl (w : World ρ) : w.Turned w [] :=
  ⟨rfl, rfl, rfl, Nat.le_refl _, (List.append_nil _).symm⟩

omit [Inhabited ρ] [Settings.Record ρ] in
theorem record (h : w.Turned u more) (e : Line ρ) : w.Turned (u.record e) (more ++ [e]) where
  records := h.records
  names := h.names
  subscriptions := h.subscriptions
  regions := h.regions
  journal := by
    show (u.journal.push e).toList = _
    rw [Array.toList_push, h.journal, List.append_assoc]

omit [Inhabited ρ] [Settings.Record ρ] in
theorem writing (h : w.Turned u more) (storage key : String) (bytes : ByteArray)
    (grows : u.media.regions.size ≤ m.regions.size) :
    w.Turned (u.writing storage key bytes m) (more ++ [.happened (.writing key storage bytes)]) :=
  have noted := h.record (.happened (.writing key storage bytes))
  ⟨noted.records, noted.names, noted.subscriptions, Nat.le_trans h.regions grows, noted.journal⟩

end World.Turned

/-- How the turn of the subscriber that writes back ends. -/
theorem deliver_writeBack {nested : Nested (World ρ) (Step ρ)} {a : Access}
    (found : ((recordSite a i).value.cell w).callback? 0 = some (.keeper false)) (pass : Option Nat)
    (v : ρ) :
    ((recordSite a i).value.deliver ((recordSite a i).call nested) pass 0 v).perform w =
      match ((recordSite a i).writeBack v).perform
        (w.note (.settings i (.value (.called pass 0 v)))) with
      | (.ok _, u) => (.ok (), u.note (.settings i (.value (.returned pass 0))))
      | (.error .panic, u) => (.ok (), u.note (.settings i (.value (.faulted pass 0))))
      | (.error .exhausted, u) => (.error .exhausted, u) := by
  have noted : (recordSite a i).value.note (.called pass 0 v) w =
    w.note (.settings i (.value (.called pass 0 v))) := rfl
  rw [Settings.Site.perform_deliver _ found, noted]
  rcases ((recordSite a i).writeBack v).perform _ with ⟨(_ | _) | _, _⟩ <;> rfl

/-- The lines of one attempt to write `v` back, unless it cannot be written, between two states of
    the media. -/
structure Tried (i : Nat) (medium : Medium) (storage key : String) (v : ρ) (before : Media)
    (lines : List (Line ρ)) (after : Media) : Prop where
  idle : Idle lines
  nonempty : lines ≠ []
  attempted : ((attempts i lines).map fun a => (a.key, a.storage, a.bytes)) =
    ((Settings.encode v).toOption.map fun bytes => (key, storage, bytes)).toList
  unchanged : stored i lines = []
  noFallback : fallbacks lines = []
  holding : before.Has medium →
    after.holding medium key = written i lines (before.holding medium key)
  /-- The medium goes on answering. -/
  answers : ∀ stored, (before.read medium key).answer? = some (.ok stored) →
    ∃ stored, (after.read medium key).answer? = some (.ok stored)

/-- The turn of the subscriber that writes back.  Whatever its medium does, there is one attempt to
    write the value, unless it cannot be written; and the medium holds the value if the attempt has
    succeeded, and else what it held before. -/
theorem deliver_tries (nested : Nested (World ρ) (Step ρ))
    (found : (w.records.getD i .blank).settings.value.callback? 0 = some (.keeper false))
    (medium : Medium) (storage : String) (pass : Option Nat) (v : ρ) :
    ∃ u more, ((recordSite ⟨medium, some storage⟩ i).value.deliver
        ((recordSite ⟨medium, some storage⟩ i).call nested) pass 0 v).perform w = (.ok (), u) ∧
      w.Turned u more ∧ Tried i medium storage (w.keyOf i) v w.media more u.media := by
  have began := (World.Turned.refl w).record (.happened (.settings i (.value (.called pass 0 v))))
  rw [deliver_writeBack found]
  cases encoded : Settings.encode v with
  -- A value without a text is not tried to be written.
  | error e =>
    rw [writeBack_unserialized encoded]
    refine ⟨_, _, rfl, (began.record _).record _, idle_snoc (by simp), by simp, ?_, ?_, rfl,
      fun _ => rfl, fun stored reads => ⟨stored, reads⟩⟩
    · simp [attempts, encoded, Except.toOption]
    · simp [stored, stored?]
  | ok bytes =>
    rcases outcome : w.media.write medium (w.keyOf i) bytes with ⟨r, m⟩
    have grows : w.media.regions.size ≤ m.regions.size :=
      Nat.le_of_eq (Media.size_regions_of_write outcome).symm
    have wrote := began.writing storage (w.keyOf i) bytes grows
    cases r with
    | answered a =>
      rw [writeBack_answered (w := w.note (.settings i (.value (.called pass 0 v)))) encoded
        outcome]
      refine ⟨_, _, rfl, wrote.record _, idle_snoc (by simp), by simp, ?_, ?_, rfl, fun has => ?_,
        fun stored reads => ?_⟩
      · simp [attempts, encoded, Except.toOption]
      · simp [stored, stored?]
      · refine (Media.holding_of_answered has outcome).trans ?_
        simp [written, attempts, returns]
      · have after := Media.read_of_write bytes reads
        rw [outcome] at after
        exact after
    -- The notice comes before the return, which tells a failure from a success.
    | failed e =>
      obtain rfl := Media.write_eq_of_not_answered outcome (by simp)
      obtain ⟨n, harmless, noticed⟩ := writeBack_failed
        (w := w.note (.settings i (.value (.called pass 0 v)))) encoded outcome
      rw [noticed]
      refine ⟨_, _, rfl, (wrote.record _).record _, idle_snoc (by simp), by simp, ?_, ?_, ?_,
        fun _ => rfl, fun stored reads => ⟨stored, reads⟩⟩
      · simp [attempts, encoded, Except.toOption]
      · simp [stored, stored?]
      · simpa [fallbacks, fallback?, notice?] using harmless
    -- The subscriber does not return, and the medium is as it was.
    | panicked =>
      obtain rfl := Media.write_eq_of_not_answered outcome (by simp)
      rw [writeBack_panicked (w := w.note (.settings i (.value (.called pass 0 v)))) encoded
        outcome]
      refine ⟨_, _, rfl, wrote.record _, idle_snoc (by simp), by simp, ?_, ?_, rfl, fun _ => rfl,
        fun stored reads => ⟨stored, reads⟩⟩
      · simp [attempts, encoded, Except.toOption]
      · simp [stored, stored?]

omit [Inhabited ρ] in
/-- After a change, the attempt is one to write the value that the change has stored. -/
theorem Tried.mirrors {key : String} {before after : Media} {lines : List (Line ρ)}
    (h : Tried i medium storage key v before lines after) (has : before.Has medium)
    (number : Nat) :
    Mirrors i medium storage key (before.holding medium key)
      (.happened (.settings i (.value (.committed number v))) :: lines) after where
  attempted := by
    have one : stored i (.happened (.settings i (.value (.committed number v))) :: lines) = [v] := by
      have first : stored? i (.happened (.settings i (.value (.committed number v)))) = some v :=
        if_pos rfl
      rw [stored, List.filterMap_cons_some first, ← stored, h.unchanged]
    rw [attempts_cons_of_ne (by simp), h.attempted, one]
    cases encoded : Settings.encode v <;> simp [encoded, Except.toOption]
  holding := by
    rw [h.holding has, written, written, attempts_cons_of_ne (by simp)]

end Turn

/-! ## Steps -/

section Steps

variable {nested nested' : Nested (World ρ) (Step ρ)}

/-- After a value has been stored, the first turn restores what the change has broken. -/
theorem mirroring_first (h : World.Mirroring start name i medium storage key w) (v : ρ)
    (number : Nat) :
    (mirroring start name i medium storage key).CarriesFrom
      ((recordSite ⟨medium, some storage⟩ i).value.note (.committed number v)
        ((recordSite ⟨medium, some storage⟩ i).value.adjust (·.store v) w))
      ((recordSite ⟨medium, some storage⟩ i).value.deliver
        ((recordSite ⟨medium, some storage⟩ i).call nested) (some number) 0 v)
      ((recordSite ⟨medium, some storage⟩ i).value.deliver
        ((recordSite ⟨medium, some storage⟩ i).call nested') (some number) 0 v) := by
  have keeps : ((recordSite ⟨medium, some storage⟩ i).value.note (.committed number v)
      ((recordSite ⟨medium, some storage⟩ i).value.adjust (·.store v) w)).Keeps name i medium
        storage key :=
    (World.Keeps.adjust h.keeps.toHosts _ (h.keeps.value.store v)).record _
  have under : World.keyOf _ i = key := keeps.key
  -- The keeper is the first on the list: it writes before anybody else can change the value again.
  obtain ⟨u, more, turn, turned, tried⟩ :=
    deliver_tries nested keeps.value.keeper medium storage (some number) v
  rw [under] at tried
  refine ⟨?_, ?_, trivial⟩
  · rw [deliver_writeBack keeps.value.keeper, deliver_writeBack keeps.value.keeper]
  · rw [turn]
    refine h.further ?_ (.happened (.settings i (.value (.committed number v))) :: more)
      turned.names ?_ ?_ (by simp) (tried.mirrors keeps.has number)
    · exact keeps.of_eq turned.records (fun handle id found => keeps.handles handle id
        (turned.subscriptions ▸ found)) turned.regions
    · rw [turned.journal]
      show (w.journal.push _).toList ++ more = _
      rw [Array.toList_push, List.append_assoc]
      rfl
    · show Idle ([_] ++ more)
      exact idle_append tried.idle tried.nonempty

theorem mirroring_quiescent (a : Access) (j : Nat) :
    (recordSite a j).value.Quiescent (mirroring start name i medium storage key) :=
  fun _ h => mirroring_note j h

/-- Everybody but the first subscriber only tends the record. -/
theorem mirroring_servedAt (a : Access)
    (hn : Nested.Carried (mirroring start name i medium storage key) (Tends name) nested nested')
    {id : Nat} (other : id ≠ 0) :
    (recordSite a i).value.ServedAt (mirroring start name i medium storage key) id
      ((recordSite a i).call nested) ((recordSite a i).call nested') :=
  Listener.Quiet.servedAt
    ⟨fun _ _ => mirroring_note i rfl, fun j k => mirroring_adjust a fun _ h => h.spend j k⟩
    hn.act (mirroring_quiescent a i) (fun _ h l found => (h.keeps.value.script id l other found).1)
    fun _ h skip found => absurd rfl ((h.keeps.value.script id _ other found).2 skip)

theorem perform_set_listed (h : w.Keeps name i medium storage key) (a : Access)
    (free : ((recordSite a i).value.cell w).isBorrowed = false) {rest : List Nat}
    (listed : ((recordSite a i).value.cell w).listed = 0 :: rest) (v : ρ) :
    ((recordSite a i).value.set ((recordSite a i).call nested) v).perform w =
      (do
        (recordSite a i).value.deliver ((recordSite a i).call nested)
          (some (((recordSite a i).value.cell w).version + 1)) 0 v
        (recordSite a i).value.announce ((recordSite a i).call nested)
          (((recordSite a i).value.cell w).version + 1) v rest).perform
        ((recordSite a i).value.committed v w) :=
  Place.perform_set_listed (cell_adjust h.small _) (fun _ _ => rfl) free listed h.value.active

theorem mirroring_set
    (hn : Nested.Carried (mirroring start name i medium storage key) (Tends name) nested nested')
    (v : ρ) :
    (mirroring start name i medium storage key).Carries
      ((recordSite ⟨medium, some storage⟩ i).value.set
        ((recordSite ⟨medium, some storage⟩ i).call nested) v)
      ((recordSite ⟨medium, some storage⟩ i).value.set
        ((recordSite ⟨medium, some storage⟩ i).call nested') v) := by
  intro w h
  cases borrowed : ((recordSite ⟨medium, some storage⟩ i).value.cell w).isBorrowed with
  | true =>
    constructor
    · rw [Place.perform_set_borrowed borrowed, Place.perform_set_borrowed borrowed]
    · rw [Place.perform_set_borrowed borrowed]
      exact h
    · trivial
  | false =>
    obtain ⟨rest, listed, once⟩ := h.keeps.value.listed
    refine ((mirroring_first h v _).bind fun _ u _ hu => ?_).after
      (perform_set_listed h.keeps _ borrowed listed v)
      (perform_set_listed h.keeps _ borrowed listed v) trivial
    refine Place.announce_carries (mirroring_quiescent _ i) _ v (fun id turn => ?_) u hu
    exact mirroring_servedAt _ hn fun same => once (same ▸ turn)

theorem mirroring_steady
    (hn : Nested.Carried (mirroring start name i medium storage key) (Tends name) nested nested') :
    (recordSite ⟨medium, some storage⟩ i).value.Steady
      (mirroring start name i medium storage key) (Listener.IsScript (Tends name))
      ((recordSite ⟨medium, some storage⟩ i).call nested)
      ((recordSite ⟨medium, some storage⟩ i).call nested') where
  set v := mirroring_set hn v
  borrowing _ _ := Place.borrowing_carries (mirroring_adjust _ fun _ h => h.borrow)
    (mirroring_adjust _ fun _ h => h.release)
  subscribe callback isScript := by
    refine Place.subscribe_carries (mirroring_quiescent _ i)
      (mirroring_adjust _ fun _ h => h.register isScript) fun w h => ?_
    exact mirroring_servedAt _ hn h.keeps.value.nextId_ne_zero

theorem mirroring_forget (handle : String) :
    (mirroring start name i medium storage key).Admits
      fun w => { w with subscriptions := w.subscriptions.erase handle } := by
  intro w h
  refine ⟨h.still (h.keeps.of_eq rfl (fun handle' id found => ?_) (Nat.le_refl _)) rfl rfl rfl,
    trivial⟩
  exact h.keeps.handles handle' id (OrderedMap.get?_of_get?_erase found)

/-- Changes of contexts, which keep their settings elsewhere. -/
theorem mirroring_contexts (f : World ρ → Array (Context (Step ρ))) :
    (mirroring start name i medium storage key).Admits fun w => { w with contexts := f w } :=
  fun _ h => ⟨h.still (h.keeps.of_eq rfl h.keeps.handles (Nat.le_refl _)) rfl rfl rfl, trivial⟩

theorem mirroring_askSubscription (handle : String) (request : Subscription.Request) :
    (mirroring start name i medium storage key).Carries (askSubscription handle request)
      (askSubscription handle request) := by
  refine Carries.look fun w h => ?_
  rcases found : w.subscriptions.get? handle with _ | ⟨j | j | j, id⟩
  · exact .pure h _
  · refine Subscription.Request.perform_carries (Place.unsubscribe_carries
      (mirroring_quiescent _ j) ?_ ?_) (mirroring_forget handle) request w h
    all_goals
      by_cases here : j = i
      · subst here
        -- The subscriber that writes back has no handle, so it is somebody else.
        have other : id ≠ 0 := h.keeps.handles handle id found
        first
          | exact mirroring_adjust _ fun _ h => h.silence other
          | exact mirroring_adjust _ fun _ h => h.delist other
      · exact mirroring_adjust_of_ne _ here _
  · exact Subscription.Request.perform_carries_of_admits (fun _ => mirroring_contexts _)
      (fun _ => mirroring_record (by simp) rfl) (mirroring_forget handle) id request w h
  · exact Subscription.Request.perform_carries_of_admits (fun _ => mirroring_contexts _)
      (fun _ => mirroring_record (by simp) rfl) (mirroring_forget handle) id request w h

variable [Text.Describe ρ]

theorem mirroring_settings
    (hn : Nested.Carried (mirroring start name i medium storage key) (Tends name) nested nested')
    {action : Settings.Action (Step ρ) ρ} (within : action.Within (Tends name)) :
    (mirroring start name i medium storage key).Carries
      (perform nested (.settings name action)) (perform nested' (.settings name action)) := by
  refine Carries.look fun w h => ?_
  rw [h.named]
  refine CarriesFrom.look ?_
  rw [h.keeps.access]
  refine (Settings.Action.perform_carries hn (mirroring_steady hn)
    (fun handle u hu rules id v ran hv => ?_) action within w h).map _
  -- A new subscriber is not the first one.
  have other : id ≠ 0 := by
    rw [Place.nextId_of_subscribe ran]
    exact hu.keeps.value.nextId_ne_zero
  refine ⟨hv.still (hv.keeps.of_eq rfl (fun handle' id' found => ?_) (Nat.le_refl _)) rfl rfl rfl,
    trivial⟩
  rcases OrderedMap.get?_insert_cases found with ⟨-, same⟩ | found
  · cases same
    exact other
  · exact hv.keeps.handles handle' id' found

/-- Steps on a record keep its medium mirroring it. -/
theorem heeds_mirroring :
    (language ρ).Heeds (mirroring start name i medium storage key) (Tends name) where
  cut _ _ := trivial
  began _ := mirroring_record (by simp) rfl
  did _ _ _ := mirroring_record (by simp) rfl
  inner _ _ := mirroring_record (by simp) rfl
  perform nested nested' s hn hs := by
    cases hs with
    | settings action within => exact mirroring_settings hn within
    | subscription handle request => exact (mirroring_askSubscription handle request).map _
    | turn name' reads writes =>
      refine turn_carries fun other w h => ⟨h.still (h.keeps.media ?_) rfl rfl ?_, trivial⟩
      · exact Nat.le_of_eq (Media.size_regions_turn reads writes).symm
      · exact Media.holding_turn other reads writes
    | read name' key' => exact read_carries name' key'
    | panic => exact carries_panic

end Steps

variable [Text.Describe ρ]

/-- The medium of a record mirrors it.  However loading the record ended, and whatever steps are
    done on it afterwards, with subscribers that change it or panic at any depth and media that fail
    and recover at any time: whenever a step begins, at whatever depth, and at the end, each value
    that was stored since then has been tried to be written once, in the order of the changes, and
    the medium holds the bytes of the last attempt that succeeded, or what it held when the record
    had been loaded. -/
theorem writeback_mirrors (files : FileTree) (budget : Nat) (before after : List (Step ρ))
    {name storage key : String} {default v : ρ} {lines : List (Line ρ)} {loaded : World ρ}
    (loads : (language ρ).runStep budget (.load name storage key default)
      ((language ρ).run budget before (World.start files)).2 = (⟨.ok (.loaded v), lines⟩, loaded))
    (tends : ∀ s ∈ after, Tends name s) :
    ∃ i medium,
      ((language ρ).run budget before (World.start files)).2.storages.get? storage = some medium ∧
      loaded.recordNames.get? name = some i ∧
      (language ρ).Throughout
        (fun w => Mirrors i medium storage key (loaded.media.holding medium key)
          (loaded.since w) w.media)
        budget after loaded := by
  rw [Language.runStep_eq] at loads
  have ran : ((language ρ).exec budget (.load name storage key default)).perform
      ((language ρ).run budget before (World.start files)).2 = (.ok (.loaded v), loaded) := by
    obtain ⟨outcome, there⟩ := Prod.mk.inj loads
    exact Prod.ext (congrArg Language.Outcome.ending outcome) there
  obtain ⟨i, medium, found, named, keeps⟩ := exec_load (run_ranged files budget before) ran
  refine ⟨i, medium, found, named, ?_⟩
  refine heeds_mirroring.throughout (fun w h => h.since) budget tends
    (.self named keeps)

/-- A record that could not be read, on a medium that fails and panics, with a subscriber that
    changes the record again and panics. -/
theorem writeback_mirrors_switched :
    let before : List (Step UserSettings) :=
      [.medium "m" (.openAs (.switched [("k", ⟨#[123]⟩)] ⟨.io, .ok⟩))]
    let after : List (Step UserSettings) :=
      [.settings "r" (.value (.subscribe "s"
          [⟨fun u => u.resultLimit == 1, 1, [.settings "r" (.value (.set ⟨2, []⟩)), .panic]⟩])),
        .settings "r" (.value (.set ⟨1, []⟩)), .medium "m" (.turn none (some .panic)),
        .settings "r" .reset, .subscription "s" .unsubscribe]
    ∃ lines loaded,
      (language UserSettings).runStep 9 (.load "r" "m" "k" .initial)
          ((language UserSettings).run 9 before (World.start (.empty []))).2 =
        (⟨.ok (.loaded .initial), lines⟩, loaded) ∧
      (∀ s ∈ after, Tends "r" s) ∧
      ∃ i medium,
        ((language UserSettings).run 9 before (World.start (.empty []))).2.storages.get? "m" =
          some medium ∧
        loaded.recordNames.get? "r" = some i ∧
        (language UserSettings).Throughout
          (fun w => Mirrors i medium "m" "k" (loaded.media.holding medium "k")
            (loaded.since w) w.media)
          9 after loaded := by
  intro before after
  have tends : ∀ s ∈ after, Tends "r" s := by
    intro s hs
    simp only [after, List.mem_cons, List.not_mem_nil, or_false] at hs
    rcases hs with rfl | rfl | rfl | rfl | rfl
    · refine .settings _ fun s hs => ?_
      simp only [Settings.Action.steps, Observable.Action.steps, List.flatMap_cons,
        List.flatMap_nil, List.append_nil, List.mem_cons, List.not_mem_nil, or_false] at hs
      rcases hs with rfl | rfl
      · exact .settings _ nofun
      · exact .panic
    · exact .settings _ nofun
    · exact .turn ..
    · exact .settings _ nofun
    · exact .subscription ..
  exact ⟨_, _, rfl, tends, writeback_mirrors _ 9 before after rfl tends⟩

end LiveState.Session
