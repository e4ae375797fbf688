import LiveState.Proofs.Registry.Course
import LiveState.Proofs.Registry.Mounting

/-! # Registries are linear

Whatever factories and subscribers do in between, a registry is what the ledger of its journal
says: no operation gets lost, and each takes effect where it is announced.

A step is followed from where it has begun.  The line that says so stands between an announcement
that came to nothing and the next change, which would else look like the one that was announced.
-/

namespace LiveState.Registry.Scenario

open Course

variable {η : Type} {catalog : Catalog (Step η) η} {w u : World η}

/-- The course of a registry: it is what the ledger says, and calls of factories that are under way
    remain so. -/
def linear (catalog : Catalog (Step η) η) : Course (World η) where
  sound := World.Linear catalog
  leads _ w w' := ∀ calls, w.Calling catalog calls → w'.Calling catalog calls
  refl _ _ h := h
  trans h k calls hc := k calls (h calls hc)

/-! ## Single changes of a world -/

theorem World.Linear.of_leads (h : w.Linear catalog) (leads : (linear catalog).leads false w u)
    (same : u.registry.catalog = catalog)
    (value : u.registry.resolved.value = replay u.ledger.operations)
    (version : u.registry.resolved.version = u.ledger.operations.length) : u.Linear catalog := by
  obtain ⟨calls, calling⟩ := h.calling
  exact ⟨same, value, version, calls, leads calls calling⟩

theorem linear_record (h : w.Linear catalog) (line : Line η)
    (quiet : (w.ledger.enter line).operations = w.ledger.operations)
    (admitted : w.ledger.Admits catalog line) :
    (w.record line).Linear catalog ∧ (linear catalog).leads false w (w.record line) := by
  have leads : (linear catalog).leads false w (w.record line) :=
    fun calls calling => World.calling_record.2 (.line calling admitted)
  refine ⟨h.of_leads leads h.catalog_eq ?_ ?_, leads⟩
  · rw [World.ledger_record, quiet]
    exact h.value_eq
  · rw [World.ledger_record, quiet]
    exact h.version_eq

theorem admits_record {line : Line η}
    (quiet : ∀ l : Ledger η, (l.enter line).operations = l.operations ∧ l.Admits catalog line) :
    (linear catalog).Admits (World.record line) :=
  fun w h => linear_record h line (quiet w.ledger).1 (quiet w.ledger).2

theorem admits_line (line : Line η) (h : ∀ what, line ≠ .happened what) :
    (linear catalog).Admits (World.record line) := by
  cases line with
  | happened what => exact absurd rfl (h what)
  | began | did | inner => exact admits_record fun _ => ⟨rfl, trivial⟩

theorem admits_adjust
    {f : Observable (Resolved η) (Listener (Step η) (Resolved η)) →
      Observable (Resolved η) (Listener (Step η) (Resolved η))}
    (value : ∀ o, (f o).value = o.value) (version : ∀ o, (f o).version = o.version) :
    (linear catalog).Admits (site.resolved.adjust f) := by
  intro w h
  have leads : (linear catalog).leads false w (site.resolved.adjust f w) := fun _ calling => calling
  exact ⟨h.of_leads leads h.catalog_eq ((value _).trans h.value_eq)
    ((version _).trans h.version_eq), leads⟩

theorem admits_subscriptions (f : OrderedMap String Nat → OrderedMap String Nat) :
    (linear catalog).Admits fun w => { w with subscriptions := f w.subscriptions } :=
  fun _ h => ⟨⟨h.catalog_eq, h.value_eq, h.version_eq, h.calling⟩, fun _ calling => calling⟩

theorem quiescent : site.resolved.Quiescent (linear catalog) := by
  intro o unchanged
  cases o with
  | committed number v => cases unchanged
  | _ => exact admits_record fun l => ⟨rfl, trivial⟩

/-! ## Storing a mapping -/

/-- A mapping to which the operation leads that the ledger takes down for it. -/
theorem linear_committed (hw : w.Linear catalog) (hu : u.Linear catalog) {m : Resolved η}
    (led : (Operation.leadingTo m u.ledger.announced).apply u.registry.resolved.value = m)
    (leads : (linear catalog).leads false w (site.resolved.committed m u)) :
    (site.resolved.committed m u).Linear catalog ∧
      (linear catalog).leads false w (site.resolved.committed m u) := by
  have after : (site.resolved.committed m u).ledger =
      ⟨u.ledger.operations ++ [.leadingTo m u.ledger.announced], none⟩ :=
    World.ledger_record _ _
  refine ⟨hw.of_leads leads hu.catalog_eq ?_ ?_, leads⟩
  · rw [after, replay_snoc, ← hu.value_eq, led]
    rfl
  · rw [after, List.length_append, ← hu.version_eq]
    rfl

/-- The line of a change that no kind to be mounted was announced for. -/
theorem leads_committed (h : w.Linear catalog) {m : Resolved η}
    (other : ∀ key, w.ledger.announced ≠ some (.adding key))
    (led : (Operation.leadingTo m w.ledger.announced).apply w.registry.resolved.value = m) :
    (linear catalog).leads false w (site.resolved.committed m w) := by
  intro calls calling
  have admitted : w.ledger.Admits catalog (.committed (w.registry.resolved.version + 1) m) := by
    refine ⟨by rw [h.version_eq], other, ?_⟩
    rw [← h.value_eq]
    exact led
  exact World.calling_record.2 (.line calling admitted)

section

variable {nested nested' : Nested (World η) (Step η)}

theorem served (hn : Nested.Carried (linear catalog) (fun _ => True) nested nested') :
    site.resolved.Served (linear catalog) (site.call nested) (site.call nested') := by
  refine fun id => Listener.Quiet.servedAt ⟨fun _ _ => quiescent _ rfl,
    fun _ _ => admits_adjust (fun _ => rfl) fun _ => rfl⟩ hn.act quiescent
    (fun _ _ l _ => l.within_true) fun _ _ skip _ v => ?_
  cases skip with
  | true =>
    have spent : (linear catalog).Admits (site.resolved.adjust
      (·.adjustCallback id fun _ => .keeper false)) := admits_adjust (fun _ => rfl) fun _ => rfl
    exact spent.carries
  | false => exact carries_pure ()

/-- From `w` it comes to storing `m` in `u`, which is done if the mapping is not borrowed. -/
theorem carriesFrom_set (hn : Nested.Carried (linear catalog) (fun _ => True) nested nested')
    {m : Resolved η} (hu : u.Linear catalog) (reaches : (linear catalog).leads false w u)
    (stored : (site.resolved.committed m u).Linear catalog ∧
      (linear catalog).leads false w (site.resolved.committed m u))
    {β : Type} {f : Unit → β} {a a' : Act (World η) β}
    (ha : a.perform w = (f <$> site.resolved.set (site.call nested) m).perform u)
    (ha' : a'.perform w = (f <$> site.resolved.set (site.call nested') m).perform u) :
    (linear catalog).CarriesFrom w a a' := by
  cases borrowed : (site.resolved.cell u).isBorrowed with
  | true =>
    rw [Act.perform_map, Place.perform_set_borrowed borrowed] at ha ha'
    exact (CarriesFrom.panic hu).after ha ha' reaches
  | false =>
    rw [Act.perform_map, site_lawful.resolved.perform_set_free borrowed, ← Act.perform_map]
      at ha ha'
    have announced (ids : List Nat) := Place.announce_carries quiescent
      ((site.resolved.cell u).version + 1) m (fun id (_ : id ∈ ids) => served hn id) _ stored.1
    exact ((announced _).map f).after ha ha' stored.2

/-! ## Taking kinds out and mounting them -/

theorem remove_carries (hn : Nested.Carried (linear catalog) (fun _ => True) nested nested')
    (key : String) :
    (linear catalog).Carries (site.remove nested key) (site.remove nested' key) := by
  intro w hw
  obtain ⟨sound, noticed⟩ := linear_record hw (.removing key) rfl trivial
  -- Directly after its announcement the removal is what the ledger takes down.
  have led : (Operation.leadingTo (w.registry.resolved.value.erase key)
      (w.record (Line.removing key)).ledger.announced).apply w.registry.resolved.value =
        w.registry.resolved.value.erase key := by
    rw [World.ledger_removing]
    rfl
  have stored := linear_committed hw sound led
    (leads_trans noticed (leads_committed sound (by simp [World.ledger_removing]) led))
  refine carriesFrom_set hn sound noticed stored (f := id) ?_ ?_ <;> rw [id_map] <;> rfl

theorem linear_asked (h : w.Linear catalog) {key : String} {factory : Factory (Step η) η}
    (known : catalog.get? key = some factory) :
    (site.asked key w).Linear catalog ∧ ∀ calls, w.Calling catalog calls →
      (site.asked key w).Calling catalog ((key, w.registry.calls + 1) :: calls) := by
  have called (calls) (calling : w.Calling catalog calls) :
      (site.asked key w).Calling catalog ((key, w.registry.calls + 1) :: calls) :=
    World.calling_record.2 (.called calling known)
  have after : (site.asked key w).ledger = ⟨w.ledger.operations, none⟩ := World.ledger_record _ _
  obtain ⟨calls, calling⟩ := h.calling
  refine ⟨⟨h.catalog_eq, ?_, ?_, _, called calls calling⟩, called⟩
  · rw [after]
    exact h.value_eq
  · rw [after]
    exact h.version_eq

/-- A handle is announced by the end of the call that has made it. -/
theorem linear_adding (hw : w.Linear catalog) (hu : u.Linear catalog) {key : String} {number : Nat}
    (made : ∀ calls, w.Calling catalog calls → u.Calling catalog ((key, number) :: calls)) :
    (u.record (Line.adding key)).Linear catalog ∧
      (linear catalog).leads false w (u.record (Line.adding key)) := by
  have leads : (linear catalog).leads false w (u.record (Line.adding key)) :=
    fun calls calling => World.calling_record.2 (.refused (made calls calling))
  refine ⟨hw.of_leads leads hu.catalog_eq ?_ ?_, leads⟩ <;> rw [World.ledger_adding]
  · exact hu.value_eq
  · exact hu.version_eq

/-- A handle is mounted where it has been announced. -/
theorem linear_added (hw : w.Linear catalog) (hu : u.Linear catalog) {key : String} {number : Nat}
    {factory : Factory (Step η) η} (found : catalog.get? key = some factory)
    (made : ∀ calls, w.Calling catalog calls → u.Calling catalog ((key, number) :: calls)) :
    let m := u.registry.resolved.value.insert key (factory.make number)
    (site.resolved.committed m (u.record (Line.adding key))).Linear catalog ∧
      (linear catalog).leads false w (site.resolved.committed m (u.record (Line.adding key))) := by
  intro m
  have led : (Operation.leadingTo m (u.record (Line.adding key)).ledger.announced).apply
      u.registry.resolved.value = m := by
    rw [World.ledger_adding, Operation.leadingTo_insert]
    rfl
  refine linear_committed hw (linear_adding hw hu made).1 led fun calls calling => ?_
  have added := (made calls calling).added found
  rw [← World.ledger, ← hu.value_eq, ← hu.version_eq] at added
  refine World.calling_record.2 ?_
  show Regular catalog ((u.record (Line.adding key)).journal.toList ++
    [Line.committed (u.registry.resolved.version + 1) m]) u.registry.calls calls
  rw [World.journal_record, List.append_assoc]
  exact added

theorem add_carries (hn : Nested.Carried (linear catalog) (fun _ => True) nested nested')
    (key : String) :
    (linear catalog).Carries (site.add nested key) (site.add nested' key) := by
  intro w hw
  cases found : catalog.get? key with
  | none =>
    have unknown : (site.registry w).catalog.get? key = none := by
      rw [← found, ← hw.catalog_eq]
      rfl
    obtain ⟨sound, leads⟩ := linear_record hw (.happened (.notice (.rejectedUnknown key)))
      rfl found
    exact (CarriesFrom.pure sound _).after (Site.perform_add_unknown unknown)
      (Site.perform_add_unknown unknown) leads
  | some factory =>
    have known : (site.registry w).catalog.get? key = some factory := by
      rw [← found, ← hw.catalog_eq]
      rfl
    obtain ⟨asked, called⟩ := linear_asked hw found
    obtain ⟨same, sound, leads⟩ := factory.prepare_carries hn (fun _ _ => trivial)
      (w.registry.calls + 1) _ asked
    have next : (site.registry w).calls + 1 = w.registry.calls + 1 := rfl
    -- The call is under way from here to where the factory comes to its end.
    have mounting := site_lawful.perform_add_known nested known next
    have mounting' := site_lawful.perform_add_known nested' known next
    rcases ran : (factory.prepare nested (w.registry.calls + 1)).perform (site.asked key w)
      with ⟨i | _, u⟩ <;> rw [ran] at same sound leads mounting <;> rw [same] at mounting'
    -- Either the call was broken off, or the handle is mounted where it came to its end.
    · refine ⟨mounting'.trans mounting.symm, ?_, ?_⟩ <;> rw [mounting]
      · exact sound
      · exact fun calls calling => .broken (leads _ (called calls calling))
    · have made (calls) (calling : w.Calling catalog calls) :=
        leads _ (called calls calling)
      obtain ⟨announced, noticed⟩ := linear_adding hw sound made
      exact carriesFrom_set hn announced noticed (linear_added hw sound found made) mounting
        mounting'

theorem addKind_carries (hn : Nested.Carried (linear catalog) (fun _ => True) nested nested')
    (kind : PanelKind) :
    (linear catalog).Carries (site.addKind nested kind) (site.addKind nested' kind) := by
  refine (add_carries hn kind.name).bind fun result => ?_
  cases result with
  | ok _ => exact carries_pure _
  | error e =>
    have noted : (linear catalog).Admits (site.note (.notice (.kindNotInCatalog kind e))) :=
      admits_record fun _ => ⟨rfl, trivial⟩
    exact noted.carries

end

theorem unsubscribe_carries (id : Nat) :
    (linear catalog).Carries (site.resolved.unsubscribe id) (site.resolved.unsubscribe id) :=
  Place.unsubscribe_carries quiescent (admits_adjust (fun _ => rfl) fun _ => rfl)
    (admits_adjust (fun _ => rfl) fun _ => rfl)

/-! ## Acting on the mapping itself -/

theorem set_carriesFrom {nested nested' : Nested (World η) (Step η)}
    (hn : Nested.Carried (linear catalog) (fun _ => True) nested nested') (hw : w.Linear catalog)
    (calm : w.ledger.announced = none) (m : Resolved η) :
    (linear catalog).CarriesFrom w (site.resolved.set (site.call nested) m)
      (site.resolved.set (site.call nested') m) := by
  have led : (Operation.leadingTo m w.ledger.announced).apply w.registry.resolved.value = m := by
    rw [calm]
    rfl
  have stored := linear_committed hw hw led (leads_committed hw (by simp [calm]) led)
  refine carriesFrom_set hn hw ((linear catalog).refl w) stored (f := id) ?_ ?_ <;> rw [id_map]

section

variable [Text.Describe η] {exec exec' : Step η → Act (World η) (Reply η)}

/-- Steps that ran inside another one have left a line of their own, or nothing. -/
theorem calm_of_inside {inner : List (Step η)}
    (ran : (inner.forM ((language η).nested exec).inside).perform w = (.ok (), u))
    (calm : w.ledger.announced = none) : u.ledger.announced = none := by
  -- Along the steps, since each of them is followed by its own line before the next begins.
  induction inner generalizing w with
  | nil =>
    cases ran
    exact calm
  | cons s rest ih =>
    obtain ⟨_, v, first, further⟩ := Act.perform_bind_ok ran
    obtain ⟨r, x, -, noted⟩ := Act.perform_bind_ok first
    refine ih further ?_
    obtain rfl : x.record (.inner s r) = v := (Prod.mk.inj noted).2
    rw [World.ledger_record]
    rfl

theorem carried (k : ∀ s, (linear catalog).Carries (exec s) (exec' s)) :
    Nested.Carried (linear catalog) (fun _ => True) ((language η).nested exec)
      ((language η).nested exec') :=
  Language.nested_carried (fun name s r => admits_line (.did name s r) nofun)
    (fun s r => admits_line (.inner s r) nofun) fun s _ => k s

theorem update_carriesFrom (k : ∀ s, (linear catalog).Carries (exec s) (exec' s))
    (hw : w.Linear catalog) (calm : w.ledger.announced = none) (f : Resolved η → Resolved η)
    (faulty : Bool) (inner : List (Step η)) :
    (linear catalog).CarriesFrom w
      (site.resolved.update (site.call ((language η).nested exec)) f faulty
        (inner.forM ((language η).nested exec).inside))
      (site.resolved.update (site.call ((language η).nested exec')) f faulty
        (inner.forM ((language η).nested exec').inside)) := by
  have hn := carried k
  have inside := Carries.forM fun s (_ : s ∈ inner) => hn.inside s trivial
  refine Place.carriesFrom_look ((inside w hw).bind fun _ u ran hu => ?_)
  cases faulty with
  | true => exact .panic hu
  | false => exact set_carriesFrom hn hu (calm_of_inside ran calm) _

theorem resolved_carriesFrom (k : ∀ s, (linear catalog).Carries (exec s) (exec' s))
    (hw : w.Linear catalog) (calm : w.ledger.announced = none)
    (action : Observable.Action (Step η) (Resolved η)) :
    (linear catalog).CarriesFrom w
      (action.perform site.resolved ((language η).nested exec) (fun _ => pure ())
        fun name id w => { w with subscriptions := w.subscriptions.insert name id })
      (action.perform site.resolved ((language η).nested exec') (fun _ => pure ())
        fun name id w => { w with subscriptions := w.subscriptions.insert name id }) := by
  have hn := carried k
  cases action with
  | get | version => exact (Place.look_carries _ w hw).map _
  | describe pretty => exact Place.carriesFrom_look (.pure hw _)
  | set m => exact (set_carriesFrom hn hw calm m).bind fun _ _ _ hv => .pure hv _
  | update f faulty inner | replaceWith f faulty inner =>
    exact (update_carriesFrom k hw calm f faulty inner).bind fun _ _ _ hv => .pure hv _
  | borrow inner =>
    have inside := Carries.forM fun s (_ : s ∈ inner) => hn.inside s trivial
    exact (Place.borrowing_carries (admits_adjust (fun _ => rfl) fun _ => rfl)
      (admits_adjust (fun _ => rfl) fun _ => rfl) inside w hw).map _
  | subscribe name rules =>
    refine (Place.subscribe_carries quiescent (admits_adjust (fun _ => rfl) fun _ => rfl)
      (fun _ _ => served hn _) w hw).bind fun id v _ hv => ?_
    exact ((admits_subscriptions (·.insert name id)).carries v hv).bind fun _ _ _ hu => .pure hu _

/-! ## Runs -/

theorem act_carriesFrom (k : ∀ s, (linear catalog).Carries (exec s) (exec' s))
    (hw : w.Linear catalog) (calm : w.ledger.announced = none) (action : Action (Step η) η) :
    (linear catalog).CarriesFrom w
      (action.perform site ((language η).nested exec)
        fun name id w => { w with subscriptions := w.subscriptions.insert name id })
      (action.perform site ((language η).nested exec')
        fun name id w => { w with subscriptions := w.subscriptions.insert name id }) := by
  have hn := carried k
  cases action with
  | add key =>
    refine (add_carries hn key w hw).bind fun result _ _ hv => ?_
    cases result <;> exact .pure hv _
  | remove key => exact (remove_carries hn key w hw).bind fun _ _ _ hv => .pure hv _
  | addKind kind => exact (addKind_carries hn kind w hw).bind fun _ _ _ hv => .pure hv _
  | removeKind kind => exact (remove_carries hn kind.name w hw).bind fun _ _ _ hv => .pure hv _
  | list | get | contains | size | isEmpty | kinds | knows => exact (carries_view _ w hw).map _
  | describeCatalog pretty | describe pretty => exact CarriesFrom.look (.pure hw _)
  | resolved action => exact (resolved_carriesFrom k hw calm action).map _

theorem subscription_carries (nested nested' : Nested (World η) (Step η)) (name : String)
    (request : Subscription.Request) :
    (linear catalog).Carries (Scenario.perform nested (.subscription name request))
      (Scenario.perform nested' (.subscription name request)) := by
  refine fun w hw => CarriesFrom.look ?_
  cases w.subscriptions.get? name with
  | none => exact .pure hw _
  | some id =>
    exact (Subscription.Request.perform_carries (unsubscribe_carries id)
      (admits_subscriptions (·.erase name)) request w hw).map _

theorem pursues : (language η).Pursues (linear catalog) fun _ => True where
  cut _ _ _ calling := calling
  began s := admits_line (.began s) nofun
  perform exec exec' s k _ w hw := by
    obtain ⟨begun, -⟩ := linear_record hw (.began s) rfl trivial
    have calm : (w.record (.began s)).ledger.announced = none := by
      rw [World.ledger_record]
      rfl
    cases s with
    | subscription name request =>
      exact subscription_carries ((language η).nested exec) ((language η).nested exec') name request
        _ begun
    | act action => exact (act_carriesFrom (fun t => k t trivial) begun calm action).map _
    | panic => exact .panic begun

/-- Whenever a step begins, at whatever depth, and at the end of a run, the mapping is what the
    announced operations build up in their order, and its version is their number; the handles in it
    were made by calls of factories, one call for each.  Whatever steps are set off meanwhile, to
    mount a kind is one call of its factory and then one operation on what that has left, and to
    take a kind out is one operation.  A mounted kind keeps its place or goes to the end, and one
    that is taken out leaves the others in their order. -/
theorem operations_linearize (catalog : Catalog (Step η) η) (budget : Nat)
    (steps : List (Step η)) :
    (language η).Throughout (World.Linear catalog) budget steps (World.start catalog) ∧
      (∀ nested key (w : World η), Mounts nested key w ∧ Unmounts nested key w) ∧
      ∀ key handle (m : Resolved η), Puts key handle m ((Operation.put key handle).apply m) ∧
        Drops key m ((Operation.drop key).apply m) := by
  have start : (World.start catalog).Linear catalog := ⟨rfl, rfl, rfl, [], .nil⟩
  refine ⟨pursues.throughout (fun _ h => h) budget (fun _ _ => trivial) start, ?_, ?_⟩
  · exact fun nested key w => ⟨add_mounts nested key w, remove_unmounts nested key w⟩
  · exact fun key handle m => ⟨Operation.apply_put key handle m, Operation.apply_drop key m⟩

/-- While `a` is made for the first time, `b` and another `a` are mounted.  The handle that was asked
    for first is the last to be mounted, and takes the place of the other. -/
example :
    let catalog : Catalog (Step String) String := .ofList
      [("a", .labelled "a" none (some 1) [.act (.add "b"), .act (.add "a")]),
        ("b", .labelled "b" none none [])]
    (run catalog [.act (.add "a"), .act (.remove "b")]).2.registry.resolved.value.entries =
      [("a", "a#1")] := by
  decide +kernel

end

end LiveState.Registry.Scenario
