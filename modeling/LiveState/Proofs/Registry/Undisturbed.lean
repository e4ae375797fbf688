import LiveState.Proofs.Observable.Callbacks
import LiveState.Proofs.Observable.Operations
import LiveState.Proofs.Registry.Layouts
import LiveState.Proofs.Registry.Panels
import LiveState.Proofs.Yields

/-! # Registries that nobody else changes

Whoever is called when a registry is changed may do whatever it likes, as long as it comes to an end
and leaves that registry as it was.  Then every operation does what it says, and comes to its end.
-/

namespace LiveState.Registry

open Course

variable {W σ η : Type}

/-- What can be seen of a registry, apart from how often it has changed and who listens. -/
def face (r : Registry σ η) : Catalog σ η × Nat × Resolved η × Bool :=
  (r.catalog, r.calls, r.resolved.value, r.resolved.isBorrowed)

/-- Actions that mount a kind or take one out. -/
inductive Action.Mounts : Action σ η → Prop
  | add (key : String) : Mounts (.add key)
  | remove (key : String) : Mounts (.remove key)
  | addKind (kind : PanelKind) : Mounts (.addKind kind)
  | removeKind (kind : PanelKind) : Mounts (.removeKind kind)

namespace Site

/-- The course of those who come to their ends, and leave a registry as they have found it.  Before
    and after, the world is as `I` says. -/
def leaving (s : Site W σ η) (I : W → Prop) : Course W where
  sound := I
  leads b w w' := b = false ∧ (s.registry w').face = (s.registry w).face
  refl _ := ⟨rfl, rfl⟩
  trans := by
    rintro u v w b b' ⟨rfl, h⟩ ⟨rfl, k⟩
    exact ⟨rfl, k.trans h⟩

/-- Nobody disturbs the registry in a world as `I` says: its subscribers leave it as they have found
    it, and what it does itself keeps the world as `I` says. -/
structure Undisturbed (s : Site W σ η) (nested : Nested W σ) (I : W → Prop) : Prop where
  registry_adjust : ∀ f w, I w → s.registry (s.adjust f w) = f (s.registry w)
  registry_note : ∀ i w, s.registry (s.note i w) = s.registry w
  count : ∀ w, I w → I (s.adjust (fun r => { r with calls := r.calls + 1 }) w)
  store : ∀ v w, I w → I (s.resolved.adjust (·.store v) w)
  note : ∀ i w, I w → I (s.note i w)
  served : s.resolved.Served (s.leaving I) (s.call nested) (s.call nested)

namespace Undisturbed

variable {s : Site W σ η} {nested : Nested W σ} {I : W → Prop} {w : W} {catalog : Catalog σ η}
  {calls : Nat} {m : Resolved η}

theorem face_note (h : s.Undisturbed nested I) (i : Incident η) (w : W) :
    (s.registry (s.note i w)).face = (s.registry w).face := by
  rw [h.registry_note]

/-- A pass comes to its end and leaves the registry as it was. -/
theorem announce_yields (h : s.Undisturbed nested I) (hw : I w) (number : Nat) (v : Resolved η)
    (ids : List Nat) :
    (s.resolved.announce (s.call nested) number v ids).Yields w
      fun _ w' => I w' ∧ (s.registry w').face = (s.registry w).face := by
  have quiescent : s.resolved.Quiescent (s.leaving I) :=
    fun o _ w hw => ⟨h.note _ w hw, rfl, h.face_note _ w⟩
  have carried := Place.announce_carries quiescent number v (fun id (_ : id ∈ ids) => h.served id)
    w hw
  have whole : ((s.resolved.announce (s.call nested) number v ids).perform w).1 ≠ .error .panic :=
    Place.announce_ne_panic number v ids w
  rcases ran : (s.resolved.announce (s.call nested) number v ids).perform w with ⟨(_ | _) | _, w'⟩
  -- A pass does not panic, and whoever stays on the course does not use up the budget.
  · rw [ran] at whole
    exact absurd rfl whole
  · have leads := carried.leads.1
    rw [ran] at leads
    cases leads
  · have sound := carried.sound
    have leads := carried.leads.2
    rw [ran] at sound leads
    exact ⟨_, w', ran, sound, leads⟩

theorem set_yields (h : s.Undisturbed nested I) (hw : I w)
    (face : (s.registry w).face = (catalog, calls, m, false)) (v : Resolved η) :
    (s.resolved.set (s.call nested) v).Yields w
      fun _ w' => I w' ∧ (s.registry w').face = (catalog, calls, v, false) := by
  simp only [Registry.face, Prod.mk.injEq] at face
  obtain ⟨rfl, rfl, rfl, free⟩ := face
  have store : s.resolved.cell (s.resolved.adjust (·.store v) w) = (s.resolved.cell w).store v :=
    congrArg Registry.resolved (h.registry_adjust _ w hw)
  have committed : (s.registry (s.resolved.committed v w)).face =
      ((s.registry w).catalog, (s.registry w).calls, v, false) := by
    show (s.registry (s.note _ (s.adjust _ _))).face = _
    rw [h.registry_note, h.registry_adjust _ _ hw, ← free]
    rfl
  obtain ⟨_, w', ran, sound, leads⟩ := h.announce_yields (h.note (.resolved _) _ (h.store v w hw))
    ((s.resolved.cell w).version + 1) v (s.resolved.cell w).listed
  refine ⟨(), w', ?_, sound, leads.trans committed⟩
  rw [Place.perform_set_of_store store (fun o u => congrArg Registry.resolved (h.registry_note _ u))
    free]
  exact ran

theorem alter_yields (h : s.Undisturbed nested I) (hw : I w)
    (face : (s.registry w).face = (catalog, calls, m, false)) (n : Notice)
    (f : Resolved η → Resolved η) :
    (s.alter nested n f).Yields w
      fun _ w' => I w' ∧ (s.registry w').face = (catalog, calls, f m, false) := by
  refine .bind (.change (.look (.bind (.pure ?_))))
  have still := (h.face_note (.notice n) w).trans face
  have value : (s.resolved.cell (s.note (.notice n) w)).value = m :=
    congrArg (fun face : _ × _ × Resolved η × Bool => face.2.2.1) still
  simp only [value]
  exact h.set_yields (h.note _ w hw) still _

theorem remove_yields (h : s.Undisturbed nested I) (hw : I w)
    (face : (s.registry w).face = (catalog, calls, m, false)) (key : String) :
    (s.remove nested key).Yields w
      fun _ w' => I w' ∧ (s.registry w').face = (catalog, calls, m.erase key, false) :=
  h.alter_yields hw face _ _

/-- A handle is made with the next number, by a factory that sets off no steps and does not fail. -/
theorem build_yields (h : s.Undisturbed nested I) (hw : I w)
    (face : (s.registry w).face = (catalog, calls, m, false)) (key : String) (make : Nat → η) :
    (s.build nested key { make }).Yields w
      fun handle w' => handle = make (calls + 1) ∧ I w' ∧
        (s.registry w').face = (catalog, calls + 1, m, false) := by
  have counted : (s.registry (s.adjust (fun r => { r with calls := r.calls + 1 }) w)).face =
      (catalog, calls + 1, m, false) := by
    rw [h.registry_adjust _ w hw]
    simp only [Registry.face, Prod.mk.injEq] at face ⊢
    exact ⟨face.1, congrArg (· + 1) face.2.1, face.2.2⟩
  have number : (s.registry (s.adjust (fun r => { r with calls := r.calls + 1 }) w)).calls =
      calls + 1 :=
    congrArg (fun face : Catalog σ η × Nat × Resolved η × Bool => face.2.1) counted
  have nothing : ({ make } : Factory σ η).prepare nested (calls + 1) = pure () := by
    simp [Factory.prepare, Factory.stepsAt]
  refine .bind (.change (.look (.bind (.change (.bind ?_)))))
  simp only [number, nothing]
  exact .pure (.pure ⟨rfl, h.note _ _ (h.count w hw), (h.face_note _ _).trans counted⟩)

end Undisturbed

/-- Scripts whose steps leave the registry alone do not disturb it. -/
theorem undisturbed_of_scripts {s : Site W σ η} {nested : Nested W σ} {I : W → Prop}
    (allowed : σ → Prop)
    (registry_adjust : ∀ f w, I w → s.registry (s.adjust f w) = f (s.registry w))
    (registry_note : ∀ i w, s.registry (s.note i w) = s.registry w)
    (count : ∀ w, I w → I (s.adjust (fun r => { r with calls := r.calls + 1 }) w))
    (store : ∀ v w, I w → I (s.resolved.adjust (·.store v) w))
    (spend : ∀ id i w, I w → I (s.resolved.adjust (·.adjustCallback id (·.spend i)) w))
    (note : ∀ i w, I w → I (s.note i w))
    (scripts : ∀ w, I w → ∀ id l, (s.registry w).resolved.callback? id = some l →
      l.IsScript allowed)
    (acts : ∀ name t, allowed t → (s.leaving I).Carries (nested.act name t) (nested.act name t)) :
    s.Undisturbed nested I := by
  have noted (i : Incident η) : (s.leaving I).Admits (s.note i) :=
    fun w hw => ⟨note i w hw, rfl, congrArg face (registry_note i w)⟩
  have spent (id i : Nat) : (s.leaving I).Admits
      (s.resolved.adjust (·.adjustCallback id (·.spend i))) :=
    fun w hw => ⟨spend id i w hw, rfl, (congrArg face (registry_adjust _ w hw)).trans rfl⟩
  refine ⟨registry_adjust, registry_note, count, store, note, fun id => ?_⟩
  exact Listener.Quiet.servedAt ⟨fun _ _ => noted _, spent⟩ acts (fun _ _ => noted _)
    (fun w hw l found => (scripts w hw id l found).1)
    fun w hw skip found => absurd rfl ((scripts w hw id _ found).2 skip)

/-! ## What else is left alone -/

/-- Whoever is called leaves alone what `view` sees of the world. -/
def Spares (s : Site W σ η) (nested : Nested W σ) (I : W → Prop) {β : Type} (view : W → β) :
    Prop :=
  ∀ w, I w → ∀ id l, (s.registry w).resolved.callback? id = some l → ∀ pass v,
    view ((s.call nested id l v).perform (s.note (.resolved (.called pass id v)) w)).2 = view w

/-- What nobody who is called changes, and the registry itself does not, remains. -/
theorem Undisturbed.sparing {s : Site W σ η} {nested : Nested W σ} {I : W → Prop} {β : Type}
    {view : W → β} (h : s.Undisturbed nested I) (spares : s.Spares nested I view)
    (adjust : ∀ f w, I w → view (s.adjust f w) = view w) (note : ∀ i w, view (s.note i w) = view w)
    (x : β) : s.Undisturbed nested fun w => I w ∧ view w = x where
  registry_adjust f w hw := h.registry_adjust f w hw.1
  registry_note := h.registry_note
  count w hw := ⟨h.count w hw.1, (adjust _ w hw.1).trans hw.2⟩
  store v w hw := ⟨h.store v w hw.1, (adjust _ w hw.1).trans hw.2⟩
  note i w hw := ⟨h.note i w hw.1, (note i w).trans hw.2⟩
  served id w hw l found pass v :=
    have served := h.served id w hw.1 l found pass v
    ⟨rfl, ⟨served.sound, (spares w hw.1 id l found pass v).trans hw.2⟩, served.leads⟩

/-! ## Panels -/

namespace Undisturbed

variable {s : Site W σ Panel} {nested : Nested W σ} {I : W → Prop} {w : W} {calls : Nat}
  {m : Resolved Panel}

theorem add_yields (h : s.Undisturbed nested I) (hw : I w)
    (face : (s.registry w).face = (.panels, calls, m, false)) (kind : PanelKind) :
    (s.add nested kind.name).Yields w
      fun result w' => result = .ok () ∧ I w' ∧ (s.registry w').face =
        (.panels, calls + 1, m.insert kind.name (kind.build (calls + 1)), false) := by
  have catalog : (s.registry w).catalog = .panels :=
    congrArg (fun face : Catalog σ Panel × Nat × Resolved Panel × Bool => face.1) face
  refine .look ?_
  simp only [catalog, Catalog.get?_panels, PanelKind.ofName?_name, Option.map_some]
  refine .bind ((h.build_yields hw face kind.name kind.build).mono fun panel u => ?_)
  rintro ⟨rfl, hu, built⟩
  exact .bind ((h.alter_yields hu built _ _).mono fun _ w' altered => .pure ⟨rfl, altered⟩)

theorem addKind_yields (h : s.Undisturbed nested I) (hw : I w)
    (face : (s.registry w).face = (.panels, calls, m, false)) (kind : PanelKind) :
    (s.addKind nested kind).Yields w
      fun _ w' => I w' ∧ (s.registry w').face =
        (.panels, calls + 1, m.insert kind.name (kind.build (calls + 1)), false) := by
  refine .bind ((h.add_yields hw face kind).mono fun result w' => ?_)
  rintro ⟨rfl, added⟩
  exact .pure added

/-- Mounting kinds and taking them out makes layouts of layouts. -/
theorem perform_layout (h : s.Undisturbed nested I) (hw : I w)
    (face : (s.registry w).face = (.panels, calls, m, false)) (layout : PanelLayout m)
    {enrol : String → Nat → W → W} {action : Action σ Panel} (mounts : action.Mounts) :
    (action.perform s nested enrol).Yields w fun _ w' => I w' ∧ ∃ calls' m',
      (s.registry w').face = (.panels, calls', m', false) ∧ PanelLayout m' := by
  cases mounts with
  | add key =>
    -- The catalog is that of all panels, so that a key is unknown exactly if it names no kind.
    cases known : PanelKind.ofName? key with
    | some kind =>
      obtain rfl := PanelKind.name_eq_of_ofName? known
      refine .bind ((h.add_yields hw face kind).mono fun result w' => ?_)
      rintro ⟨rfl, hw', added⟩
      exact .pure ⟨hw', _, _, added, .mounted kind _ layout⟩
    | none =>
      have catalog : (s.registry w).catalog = .panels :=
        congrArg (fun face : Catalog σ Panel × Nat × Resolved Panel × Bool => face.1) face
      have unknown : (s.registry w).catalog.get? key = none := by
        rw [catalog, Catalog.get?_panels, known]
        rfl
      refine .bind ⟨_, _, perform_add_unknown unknown, .pure ⟨h.note _ w hw, calls, m, ?_, layout⟩⟩
      exact (h.face_note _ w).trans face
  | addKind kind =>
    exact .bind ((h.addKind_yields hw face kind).mono fun _ w' added =>
      .pure ⟨added.1, _, _, added.2, .mounted kind _ layout⟩)
  | remove key =>
    exact .bind ((h.remove_yields hw face key).mono fun _ w' removed =>
      .pure ⟨removed.1, _, _, removed.2, .removed key layout⟩)
  | removeKind kind =>
    exact .bind ((h.remove_yields hw face kind.name).mono fun _ w' removed =>
      .pure ⟨removed.1, _, _, removed.2, .removed kind.name layout⟩)

end Undisturbed

end Site

end LiveState.Registry
