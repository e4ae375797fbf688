import LiveState.Proofs.Observable.Callbacks
import LiveState.Proofs.Observable.Operations
import LiveState.Proofs.Session.Attempts
import LiveState.Proofs.Session.Ranged

/-! # Records that are kept

From the moment when a record has been loaded until other things are done than steps on it, the
subscriber that writes it back is its first one, active, and no longer waiting for a first value
to let go; and no handle can end it.
-/

namespace LiveState.Session

open Course

variable {ρ : Type}

/-- A step on the record of a name.  In between switches may be turned, media may be read, and
    whatever was subscribed earlier may be asked or ended. -/
inductive Tends (name : String) : Step ρ → Prop where
  | settings (action : Settings.Action (Step ρ) ρ) (h : ∀ s ∈ action.steps, Tends name s) :
      Tends name (.settings name action)
  | subscription (handle : String) (request : Subscription.Request) :
      Tends name (.subscription handle request)
  | turn (medium : String) (reads writes : Option FaultMode) :
      Tends name (.medium medium (.turn reads writes))
  | read (medium key : String) : Tends name (.medium medium (.read key))
  | panic : Tends name .panic

variable [Inhabited ρ]

/-- Record `i` is there, under a key of a medium. -/
structure World.Hosts (w : World ρ) (i : Nat) (medium : Medium) (storage key : String) : Prop where
  small : i < w.records.size
  access : w.recordAccess i = ⟨medium, some storage⟩
  key : (w.records.getD i .blank).settings.key = key
  /-- The subscriber that writes back has no handle. -/
  handles : ∀ handle id, w.subscriptions.get? handle = some (.settings i, id) → id ≠ 0
  has : w.media.Has medium

/-- Record `i` is written back before anybody hears of it, and all who hear of it only tend it. -/
structure World.Keeps (w : World ρ) (name : String) (i : Nat) (medium : Medium)
    (storage key : String) : Prop extends w.Hosts i medium storage key where
  value : (w.records.getD i .blank).settings.value.KeeperFirst (Tends name)

/-! ## The place of a record -/

section Place

variable {a : Access} {i j : Nat} {w : World ρ}

theorem cell_adjust (small : i < w.records.size)
    (f : Observable ρ (Listener (Step ρ) ρ) → Observable ρ (Listener (Step ρ) ρ)) :
    (recordSite a i).value.cell ((recordSite a i).value.adjust f w) =
      f ((recordSite a i).value.cell w) := by
  have adjusted := getD_modify small (fun k : Kept (Step ρ) ρ =>
    { k with settings := { k.settings with value := f k.settings.value } }) .blank
  exact congrArg (fun k : Kept (Step ρ) ρ => k.settings.value) adjusted

theorem cell_enlisted (small : i < w.records.size) (l : Listener (Step ρ) ρ) :
    (recordSite a i).value.cell ((recordSite a i).value.enlisted l w) =
      ((recordSite a i).value.cell w).register l :=
  cell_adjust small (·.register l)

end Place

/-! ## What leaves a record where it is -/

variable {w : World ρ} {name storage key : String} {i : Nat} {medium : Medium}

namespace World.Hosts

/-- Only the records, the handles and the presence of media matter. -/
theorem of_eq {w' : World ρ} (h : w.Hosts i medium storage key)
    (records : w'.records = w.records)
    (handles : ∀ handle id, w'.subscriptions.get? handle = some (.settings i, id) → id ≠ 0)
    (media : w.media.regions.size ≤ w'.media.regions.size) :
    w'.Hosts i medium storage key where
  small := by
    rw [records]
    exact h.small
  access := by
    rw [recordAccess, records]
    exact h.access
  key := by
    rw [records]
    exact h.key
  handles := handles
  has := h.has.mono media

theorem modify (h : w.Hosts i medium storage key) (j : Nat)
    {f : Kept (Step ρ) ρ → Kept (Step ρ) ρ}
    (hf : ∀ k, (f k).access = k.access ∧ (f k).settings.key = k.settings.key) :
    { w with records := w.records.modify j f }.Hosts i medium storage key := by
  have same : ((w.records.modify j f).getD i .blank).access =
        (w.records.getD i .blank).access ∧
      ((w.records.modify j f).getD i .blank).settings.key =
        (w.records.getD i .blank).settings.key := by
    by_cases here : j = i
    · subst here
      rw [getD_modify h.small]
      exact hf _
    · rw [getD_modify_of_ne here]
      exact ⟨rfl, rfl⟩
  constructor
  · exact Nat.lt_of_lt_of_eq h.small (Array.size_modify ..).symm
  · exact same.1.trans h.access
  · exact same.2.trans h.key
  · exact h.handles
  · exact h.has

theorem adjust (h : w.Hosts i medium storage key) (a : Access) (j : Nat)
    (f : Observable ρ (Listener (Step ρ) ρ) → Observable ρ (Listener (Step ρ) ρ)) :
    ((recordSite a j).value.adjust f w).Hosts i medium storage key :=
  h.modify j fun _ => ⟨rfl, rfl⟩

theorem record (h : w.Hosts i medium storage key) (e : Line ρ) :
    (w.record e).Hosts i medium storage key :=
  h.of_eq rfl h.handles (Nat.le_refl _)

end World.Hosts

namespace World.Keeps

theorem of_eq {w' : World ρ} (h : w.Keeps name i medium storage key)
    (records : w'.records = w.records)
    (handles : ∀ handle id, w'.subscriptions.get? handle = some (.settings i, id) → id ≠ 0)
    (media : w.media.regions.size ≤ w'.media.regions.size) :
    w'.Keeps name i medium storage key where
  toHosts := h.toHosts.of_eq records handles media
  value := by
    rw [records]
    exact h.value

theorem record (h : w.Keeps name i medium storage key) (e : Line ρ) :
    (w.record e).Keeps name i medium storage key :=
  h.of_eq rfl h.handles (Nat.le_refl _)

theorem media (h : w.Keeps name i medium storage key) {m : Media}
    (grows : w.media.regions.size ≤ m.regions.size) :
    { w with media := m }.Keeps name i medium storage key :=
  h.of_eq rfl h.handles grows

theorem adjust (h : w.Hosts i medium storage key) (a : Access)
    {f : Observable ρ (Listener (Step ρ) ρ) → Observable ρ (Listener (Step ρ) ρ)}
    (hf : (f ((recordSite a i).value.cell w)).KeeperFirst (Tends name)) :
    ((recordSite a i).value.adjust f w).Keeps name i medium storage key where
  toHosts := h.adjust a i f
  value := by
    show ((recordSite a i).value.cell ((recordSite a i).value.adjust f w)).KeeperFirst _
    rw [cell_adjust h.small]
    exact hf

theorem adjust_of_ne (h : w.Keeps name i medium storage key) (a : Access) {j : Nat} (ne : j ≠ i)
    (f : Observable ρ (Listener (Step ρ) ρ) → Observable ρ (Listener (Step ρ) ρ)) :
    ((recordSite a j).value.adjust f w).Keeps name i medium storage key where
  toHosts := h.toHosts.adjust a j f
  value := by
    have same := getD_modify_of_ne ne w.records (fun k : Kept (Step ρ) ρ =>
      { k with settings := { k.settings with value := f k.settings.value } }) .blank
    exact (congrArg (fun k : Kept (Step ρ) ρ => k.settings.value) same) ▸ h.value

end World.Keeps

/-! ## Loading -/

/-- The course on which record `i` is kept. -/
def keeping (name : String) (i : Nat) (medium : Medium) (storage key : String) :
    Course (World ρ) :=
  Course.invariant fun w => w.Keeps name i medium storage key

theorem keeping_record (e : Line ρ) :
    (keeping name i medium storage key).Admits (World.record e) :=
  fun _ h => ⟨h.record e, trivial⟩

theorem keeping_write (medium' : Medium) (key' : String) (bytes : ByteArray) :
    (keeping (ρ := ρ) name i medium storage key).Admits
      fun w => { w with media := (w.media.write medium' key' bytes).2 } :=
  fun _ h => ⟨h.media (Nat.le_of_eq Media.size_regions_write.symm), trivial⟩

theorem hosts_push (settings : Settings (Step ρ) ρ) (has : w.media.Has medium)
    (handles : ∀ handle id, w.subscriptions.get? handle ≠ some (.settings w.records.size, id))
    (under : settings.key = key) :
    { w with records := w.records.push ⟨settings, medium, some storage⟩ }.Hosts
      w.records.size medium storage key where
  small := by simp
  access := by simp [World.recordAccess, Array.getD]
  key := by simpa [Array.getD] using under
  handles handle id found := absurd found (handles handle id)
  has := has

variable [Settings.Record ρ] {nested : Nested (World ρ) (Step ρ)}

theorem keeping_writeBack (a : Access) (v : ρ) :
    (keeping name i medium storage key).Carries ((recordSite a i).writeBack v)
      ((recordSite a i).writeBack v) :=
  Settings.Site.writeBack_carries (s := recordSite a i) (fun _ => keeping_record _)
    (fun _ _ => store_write_carries (a := a) (fun _ => keeping_record _) (keeping_write _ _ _)) v

/-- The first call of the subscriber that writes back: from now on the record is kept. -/
theorem deliver_keeps {w' : World ρ} {v : ρ} {skip : Bool}
    (hosts : w.Hosts i medium storage key)
    (registered : (recordSite ⟨medium, some storage⟩ i).value.cell w =
      (Observable.new v).register (.keeper skip))
    (ran : ((recordSite ⟨medium, some storage⟩ i).value.deliver
      ((recordSite ⟨medium, some storage⟩ i).call nested) none 0 v).perform w = (.ok (), w')) :
    w'.Keeps name i medium storage key := by
  have found : ((recordSite ⟨medium, some storage⟩ i).value.cell w).callback? 0 =
      some (.keeper skip) := by
    rw [registered]
    rfl
  obtain ⟨ending, u, called, ends⟩ := Place.deliver_ok found ran
  cases skip with
  | true =>
    -- The keeper lets the first value go, and waits for the next.
    cases called
    obtain ⟨-, rfl⟩ | ⟨⟨⟩, -⟩ := ends
    refine .record (.adjust (hosts.record _) _ ?_) _
    show (Observable.adjustCallback ((recordSite ⟨medium, some storage⟩ i).value.cell w) 0
      fun _ => .keeper false).KeeperFirst _
    rw [registered]
    exact Observable.KeeperFirst.new v true
  | false =>
    have keeps : w.Keeps name i medium storage key :=
      ⟨hosts, by
        show ((recordSite ⟨medium, some storage⟩ i).value.cell w).KeeperFirst _
        rw [registered]
        exact Observable.KeeperFirst.new v false⟩
    have after := (keeping_writeBack ⟨medium, some storage⟩ v _
      (keeps.record (.happened (.settings i (.value (.called none 0 v)))))).sound
    have same : ((recordSite ⟨medium, some storage⟩ i).writeBack v).perform
        (w.record (.happened (.settings i (.value (.called none 0 v))))) = (ending, u) := called
    rw [same] at after
    -- Whether or not the write panicked, the keeper is where it was.
    obtain ⟨-, rfl⟩ | ⟨-, rfl⟩ := ends
    · exact after.record _
    · exact after.record _

/-- A record that has just been put in is kept, once the subscriber that writes it back has been
    called for the first time. -/
theorem keep_keeps {w' : World ρ} {v : ρ} {skip : Bool}
    (hosts : w.Hosts i medium storage key)
    (fresh : (w.records.getD i .blank).settings.value = .new v)
    (ran : ((recordSite ⟨medium, some storage⟩ i).keep nested skip).perform w = (.ok (), w')) :
    w'.Keeps name i medium storage key := by
  obtain ⟨_, _, subscribed, ends⟩ := Act.perform_bind_ok ran
  cases ends
  have cell : (recordSite ⟨medium, some storage⟩ i).value.cell w = .new v := fresh
  -- Nobody can hold the value of a record that has just been put in.
  rw [Place.perform_subscribe_of_register (cell_adjust hosts.small _) (fun _ _ => rfl)
    (by rw [cell]; rfl), map_eq_pure_bind] at subscribed
  obtain ⟨_, _, delivered, ends⟩ := Act.perform_bind_ok subscribed
  cases ends
  rw [cell] at delivered
  have registered : (recordSite ⟨medium, some storage⟩ i).value.cell
      ((recordSite ⟨medium, some storage⟩ i).value.enlisted (.keeper skip) w) =
        (Observable.new v).register (.keeper skip) := by
    rw [cell_enlisted hosts.small, cell]
  exact deliver_keeps ((hosts.adjust ⟨medium, some storage⟩ i _).record _) registered delivered

/-- However loading a record ended, the record is kept. -/
theorem loadRecord_keeps {w' : World ρ} {default : ρ} (ranged : w.Ranged)
    (has : w.media.Has medium)
    (ran : (loadRecord nested ⟨medium, some storage⟩ key default).perform w = (.ok i, w')) :
    w'.Keeps name i medium storage key := by
  -- Reading leaves everything as it was, apart from the journal.
  let reads : Course (World ρ) := Course.invariant fun u =>
    u.records = w.records ∧ u.subscriptions = w.subscriptions ∧ u.media = w.media
  have put (u u' : World ρ) (v : ρ) (skip : Bool) (hu : reads.sound u)
      (put : (do
        let i ← Act.view (·.records.size)
        modify fun w => { w with
          records := w.records.push ⟨.new key default v, medium, some storage⟩ }
        return i : Act (World ρ) Nat).perform u = (.ok i, u'))
      (kept : ((recordSite ⟨medium, some storage⟩ i).keep nested skip).perform u' = (.ok (), w')) :
      w'.Keeps name i medium storage key := by
    obtain ⟨records, subscriptions, media⟩ := hu
    cases put
    refine keep_keeps (v := v) (hosts_push _ (media ▸ has) (fun handle id found => ?_) rfl) ?_ kept
    -- Handles point only to records that were there, and this one was not.
    · rw [records, subscriptions] at found
      exact Nat.lt_irrefl _ (ranged.handles handle _ id found)
    · simp [Array.getD, Settings.new]
  have record (e : Line ρ) : reads.Admits (World.record e) := fun _ h => ⟨h, trivial⟩
  obtain ⟨result, u, read, rest⟩ := Settings.load_ok ran
  have still := (Settings.readRecord_carries key
    (store_read_carries (fun _ _ => record _) ⟨medium, some storage⟩ key) default w
      ⟨rfl, rfl, rfl⟩).sound
  rw [read] at still
  cases result with
  | ok v =>
    obtain ⟨u', installed, kept⟩ := rest
    exact put u u' v false still installed kept
  | error e =>
    obtain ⟨u', installed, kept⟩ := rest
    exact put (World.note (.notice (.fellBackToDefault key e)) u) u' default true still installed
      kept

variable [Text.Describe ρ]

/-- After a record has been loaded under a name, it is kept under this name. -/
theorem exec_load {w' : World ρ} {default v : ρ} {budget : Nat} (ranged : w.Ranged)
    (ran : ((language ρ).exec budget (.load name storage key default)).perform w =
      (.ok (.loaded v), w')) :
    ∃ i medium, w.storages.get? storage = some medium ∧ w'.recordNames.get? name = some i ∧
      w'.Keeps name i medium storage key := by
  cases budget with
  | zero => cases ran
  | succ budget =>
    obtain ⟨_, _, began, loads⟩ := Act.perform_bind_ok ran
    obtain ⟨found, _, looked, loads⟩ := Act.perform_bind_ok loads
    cases began
    cases found with
    | none => cases loads
    | some medium =>
      obtain ⟨there, rfl⟩ := Prod.mk.inj looked
      have found : w.storages.get? storage = some medium := Except.ok.inj there
      obtain ⟨i, u, loaded, loads⟩ := Act.perform_bind_ok loads
      obtain ⟨_, _, named, shown⟩ := Act.perform_bind_ok loads
      cases named
      cases shown
      have began : ((language ρ).record (.began (.load name storage key default)) w).Ranged :=
        ⟨ranged.names, ranged.handles, ranged.media⟩
      have keeps : u.Keeps name i medium storage key :=
        loadRecord_keeps began (ranged.media storage medium found) loaded
      refine ⟨i, medium, found, OrderedMap.get?_insert_self .., ?_⟩
      exact keeps.of_eq rfl keeps.handles (Nat.le_refl _)

end LiveState.Session
