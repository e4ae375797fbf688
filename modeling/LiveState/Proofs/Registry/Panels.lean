import LiveState.Proofs.Registry.Membership

/-! # Registries of panels

The factories of panels set off no steps, so that a panel is mounted directly after it was built, or
not at all.  Its number counts the builds of both kinds, and no other panel ever has it.
-/

namespace LiveState.Registry

/-- Panels are made by their kinds, which are known by their names. -/
theorem Catalog.get?_panels {σ : Type} (key : String) :
    (panels : Catalog σ Panel).get? key =
      (PanelKind.ofName? key).map fun kind => { make := kind.build } := by
  have entries : (panels : Catalog σ Panel).entries =
      PanelKind.all.map fun k => (k.name, { make := k.build }) := rfl
  rw [OrderedMap.get?, entries, List.find?_map, Option.map_map, PanelKind.ofName?]
  rfl

namespace Scenario

/-! ## Numbers -/

/-- The number of the panel that an operation mounts. -/
def Operation.number? : Operation Panel → Option Nat
  | .put _ panel => some panel.instanceNumber
  | .drop _ | .replace _ => none

/-- The numbers of the panels that operations have mounted, in their order. -/
def mountedNumbers (ops : List (Operation Panel)) : List Nat := ops.filterMap Operation.number?

theorem mountedNumbers_append (ops ops' : List (Operation Panel)) :
    mountedNumbers (ops ++ ops') = mountedNumbers ops ++ mountedNumbers ops' :=
  List.filterMap_append

/-- A panel that was made by the catalog has the name of its kind for its key, and its number counts
    the builds. -/
theorem Makes.panel {earlier lines : List (Line Panel)} {key : String} {panel : Panel}
    (made : Makes .panels earlier lines key panel) :
    panel.kind.name = key ∧ panel.instanceNumber = builds earlier + 1 := by
  obtain ⟨factory, _, _, _, found, rfl, -⟩ := made
  rw [Catalog.get?_panels] at found
  obtain ⟨kind, named, rfl⟩ := Option.map_eq_some_iff.1 found
  exact ⟨PanelKind.name_eq_of_ofName? named, rfl⟩

/-- No number is given twice, whether its panel has been mounted or is still being built. -/
theorem Regular.nodup_numbers {lines : List (Line Panel)} {total : Nat}
    {calls : List (String × Nat)} (h : Regular .panels lines total calls) :
    (mountedNumbers (Ledger.ofLines lines).operations ++ calls.map (·.2)).Nodup ∧
      ∀ number ∈ mountedNumbers (Ledger.ofLines lines).operations ++ calls.map (·.2),
        number ≤ total := by
  induction h with
  | nil => exact ⟨List.nodup_nil, by simp [mountedNumbers, Ledger.ofLines]⟩
  | @line lines _ _ line _ admitted ih =>
    have same : mountedNumbers (Ledger.ofLines (lines ++ [line])).operations =
        mountedNumbers (Ledger.ofLines lines).operations := by
      rw [Ledger.ofLines_snoc]
      rcases Ledger.operations_enter (Ledger.ofLines lines) line with
        same | ⟨number, m, rfl, added⟩
      · rw [same]
      · -- Nothing is mounted that was not announced.
        have none : (Operation.leadingTo m (Ledger.ofLines lines).announced).number? = none := by
          cases led : Operation.leadingTo m (Ledger.ofLines lines).announced with
          | put k panel =>
            obtain ⟨key, announced⟩ := announced_of_leadingTo led
            exact absurd announced (admitted.2.1 key)
          | drop | replace => rfl
        rw [added, mountedNumbers_append]
        simp [mountedNumbers, none]
    rwa [same]
  | @called lines total calls key _ _ _ ih =>
    have same : (Ledger.ofLines (lines ++ [Line.built key (total + 1)])).operations =
        (Ledger.ofLines lines).operations := by
      rw [Ledger.ofLines_snoc]
      rfl
    obtain ⟨distinct, bounded⟩ := ih
    have fresh : total + 1 ∉ mountedNumbers (Ledger.ofLines lines).operations ++
        calls.map (·.2) := fun used => Nat.not_succ_le_self _ (bounded _ used)
    show (mountedNumbers (Ledger.ofLines (lines ++ [Line.built key (total + 1)])).operations ++
      _).Nodup ∧ ∀ number ∈ mountedNumbers (Ledger.ofLines
        (lines ++ [Line.built key (total + 1)])).operations ++ _, _
    rw [same, List.map_cons]
    refine ⟨List.perm_middle.nodup_iff.2 (List.nodup_cons.2 ⟨fresh, distinct⟩),
      fun number used => ?_⟩
    rcases List.mem_cons.1 (List.perm_middle.mem_iff.1 used) with rfl | used
    · exact Nat.le_refl _
    · exact Nat.le_succ_of_le (bounded number used)
  | @broken lines _ call calls _ ih =>
    have fewer := (List.sublist_cons_self call.2 (calls.map (·.2))).append_left
      (mountedNumbers (Ledger.ofLines lines).operations)
    exact ⟨ih.1.sublist fewer, fun number used => ih.2 number (fewer.mem used)⟩
  | @refused lines _ calls key number _ ih =>
    have same : (Ledger.ofLines (lines ++ [.adding key])).operations =
        (Ledger.ofLines lines).operations := by
      rw [Ledger.ofLines_snoc]
      rfl
    have fewer := (List.sublist_cons_self number (calls.map (·.2))).append_left
      (mountedNumbers (Ledger.ofLines lines).operations)
    rw [same]
    exact ⟨ih.1.sublist fewer, fun number used => ih.2 number (fewer.mem used)⟩
  | @added lines _ calls key number factory _ found ih =>
    rw [Catalog.get?_panels] at found
    obtain ⟨kind, -, rfl⟩ := Option.map_eq_some_iff.1 found
    -- The number of the call goes over to the panel.
    have moved : mountedNumbers ((Ledger.ofLines lines).operations ++
        [.put key (kind.build number)]) ++ calls.map (·.2) =
          mountedNumbers (Ledger.ofLines lines).operations ++ number :: calls.map (·.2) := by
      rw [mountedNumbers_append, List.append_assoc]
      rfl
    rw [Ledger.operations_added, moved]
    exact ih

/-! ## Worlds -/

/-- The panels of a world have the numbers of the builds that have made them. -/
structure World.Numbered (w : World Panel) : Prop where
  /-- A panel stands under the name of its kind, and was mounted by the last operation on this kind.
      Its number counts the builds of both kinds up to the one that has made it. -/
  entry : ∀ key panel, (key, panel) ∈ w.registry.resolved.value.entries →
    panel.kind.name = key ∧ ∃ before after earlier first number m rest,
      w.ledger.operations = before ++ .put key panel :: after ∧
        (∀ o ∈ after, o.key? ≠ some key) ∧
        w.journal.toList = first ++ .adding key :: .committed number m :: rest ∧
        (Ledger.ofLines first).operations = before ∧
        Makes .panels earlier first key panel ∧ panel.instanceNumber = builds earlier + 1
  distinct : (w.registry.resolved.value.entries.map (·.2.instanceNumber)).Nodup
  /-- Numbers are not used again, whatever has become of their panels. -/
  once : (mountedNumbers w.ledger.operations).Nodup
  calls_eq : w.registry.calls = builds w.journal.toList
  bounded : ∀ number ∈ mountedNumbers w.ledger.operations, number ≤ w.registry.calls

theorem World.Linear.numbered {w : World Panel} (h : w.Linear .panels)
    (kindwise : Kindwise w.ledger.operations) : w.Numbered := by
  have follows := h.followsHistory kindwise
  obtain ⟨calls, calling⟩ := h.calling
  obtain ⟨distinct, bounded⟩ := Regular.nodup_numbers calling
  have once : (mountedNumbers w.ledger.operations).Nodup :=
    distinct.sublist (List.sublist_append_left _ _)
  have put {key : String} {panel : Panel}
      (there : (key, panel) ∈ w.registry.resolved.value.entries) :
      .put key panel ∈ w.ledger.operations := by
    obtain ⟨before, after, _, _, _, _, _, split, -⟩ :=
      follows.handle key panel ((OrderedMap.get?_eq_some_iff follows.distinct).2 there)
    rw [split]
    simp
  refine ⟨fun key panel there => ?_, ?_, once, (Regular.builds_eq calling).symm,
    fun number used => bounded number (List.mem_append_left _ used)⟩
  · obtain ⟨before, after, earlier, first, number, m, rest, split, others, lines, same, made⟩ :=
      follows.handle key panel ((OrderedMap.get?_eq_some_iff follows.distinct).2 there)
    exact ⟨made.panel.1, before, after, earlier, first, number, m, rest, split, others, lines, same,
      made, made.panel.2⟩
  · -- Two panels stand under different keys, so that different operations have mounted them.
    have apart : w.ledger.operations.Pairwise fun o o' =>
        ∀ number ∈ o.number?, ∀ number' ∈ o'.number?, number ≠ number' :=
      List.pairwise_filterMap.1 once
    have keys : w.registry.resolved.value.entries.Pairwise fun e e' => e.1 ≠ e'.1 :=
      List.pairwise_map.1 follows.distinct
    refine List.pairwise_map.2 (keys.imp_of_mem fun {e e'} there there' other => ?_)
    have puts : Operation.put e.1 e.2 ≠ .put e'.1 e'.2 := fun same => other (by injection same)
    rcases pair_sublist_or_of_mem (put there) (put there') puts with first | second
    · exact List.pairwise_iff_forall_sublist.1 apart first _ rfl _ rfl
    · exact (List.pairwise_iff_forall_sublist.1 apart second _ rfl _ rfl).symm

/-! ## Mounting panels -/

variable {nested : Nested (World Panel) (Step Panel)} {w : World Panel}

/-- A panel of a known kind is built first, with the next number.  Directly afterwards it is mounted
    by one operation, unless the mapping is borrowed. -/
def MountsPanel (nested : Nested (World Panel) (Step Panel)) (kind : PanelKind)
    (w : World Panel) : Prop :=
  ∃ ending v, (site.add nested kind.name).perform w = (ending.map fun _ => .ok (), v) ∧
    Follows nested (.addingCapability kind.name)
      (.put kind.name (kind.build (w.registry.calls + 1))) (site.asked kind.name w) ending v

theorem add_mountsPanel (panels : w.registry.catalog = .panels) (kind : PanelKind) :
    MountsPanel nested kind w := by
  have mounts := add_mounts nested kind.name w
  rw [Mounts, panels, Catalog.get?_panels, PanelKind.ofName?_name] at mounts
  exact mounts

theorem perform_add_unnamed (panels : w.registry.catalog = .panels) {key : String}
    (unknown : PanelKind.ofName? key = none) :
    (site.add nested key).perform w = (.ok (.error (.unknownCapability key)),
      w.record (.happened (.notice (.rejectedUnknown key)))) := by
  have mounts := add_mounts nested key w
  rw [Mounts, panels, Catalog.get?_panels, unknown] at mounts
  exact mounts

/-- The catalog knows every kind, so that there is nothing to be warned of. -/
theorem perform_addKind (panels : w.registry.catalog = .panels) (kind : PanelKind) :
    (site.addKind nested kind).perform w =
      ((fun _ => ()) <$> site.add nested kind.name).perform w := by
  obtain ⟨ending, v, ran, -⟩ : MountsPanel nested kind w := add_mountsPanel panels kind
  rw [Site.addKind, Act.perform_bind, Act.perform_map, ran]
  cases ending <;> rfl

/-- Whenever a step begins, at whatever depth, and at the end of a run, if the mapping has been
    changed only by mounting kinds and taking them out, every panel stands under the name of its
    kind, and its number counts the builds of both kinds up to the one that has made it.  So no two
    mounted panels have the same number, and numbers are never used again.  In each of these worlds,
    mounting a kind is one build with the next number, which is larger than all before, and then one
    operation, or none if the mapping is borrowed; nothing is built for a name that is no kind's;
    and to mount a kind by itself is to mount it by its name, without any warning. -/
theorem panel_numbers_unique (budget : Nat) (steps : List (Step Panel)) :
    (language Panel).Throughout
      (fun w => w.registry.catalog = .panels ∧ (Kindwise w.ledger.operations → w.Numbered))
      budget steps (World.start .panels) ∧
    ∀ nested (w : World Panel), w.registry.catalog = .panels →
      (∀ kind, MountsPanel nested kind w ∧
        (site.addKind nested kind).perform w =
          ((fun _ => ()) <$> site.add nested kind.name).perform w) ∧
      ∀ key, PanelKind.ofName? key = none →
        (site.add nested key).perform w = (.ok (.error (.unknownCapability key)),
          w.record (.happened (.notice (.rejectedUnknown key)))) := by
  have start : (World.start .panels).Linear .panels := ⟨rfl, rfl, rfl, [], .nil⟩
  refine ⟨pursues.throughout (fun w linear => ⟨linear.catalog_eq, linear.numbered⟩) budget
    (fun _ _ => trivial) start, fun nested w panels => ⟨fun kind => ?_, fun key => ?_⟩⟩
  · exact ⟨add_mountsPanel panels kind, perform_addKind panels kind⟩
  · exact perform_add_unnamed panels

end Scenario

end LiveState.Registry
