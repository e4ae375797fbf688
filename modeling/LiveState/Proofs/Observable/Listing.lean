import LiveState.Proofs.Observable.Panics
import LiveState.Proofs.Observable.Settling

/-! # The list of subscribers

Whatever happens in a run, the list of subscribers tells how their subscriptions have ended.  Each
successful subscription has its entry on it, apart from those that have ended while the value was not
borrowed.
-/

namespace LiveState

/-- If the list holds the numbers that `p` says, then the other ones are missing from the count. -/
theorem Observable.Tidy.length_listed {α κ : Type} {o : Observable α κ} (h : o.Tidy)
    {p : Nat → Bool} (mem : ∀ id < o.nextId, id ∈ o.listed ↔ p id = true) :
    o.listed.length + (List.range o.nextId).countP (fun id => !p id) = o.nextId := by
  have same : o.listed.Perm ((List.range o.nextId).filter p) := by
    refine (List.perm_ext_iff_of_nodup (h.ascending.imp Nat.ne_of_lt)
      (List.nodup_range.filter p)).2 fun id => ?_
    rw [List.mem_filter, List.mem_range]
    exact ⟨fun hid => ⟨h.below id hid, (mem id (h.below id hid)).1 hid⟩,
      fun ⟨known, hid⟩ => (mem id known).2 hid⟩
  have all := List.length_eq_countP_add_countP p (l := List.range o.nextId)
  rw [List.length_range] at all
  rw [same.length_eq, ← List.countP_eq_length_filter]
  simpa using all.symm

namespace Observable.Scenario

variable {n : Nat} {α : Type} [Text.Describe α] {i : Fin n}

/-! ## What is said of a world -/

open Classical in
/-- The list of observable `i` goes up and holds no number that has not been given.  Whoever was
    registered is on it, if still active or if `kept` there, and the others are missing from the count
    that is shown. -/
structure World.Lists (i : Fin n) (kept : Nat → Prop) (w : World n α) : Prop where
  ascending : w[i].listed.Pairwise (· < ·)
  below : ∀ id ∈ w[i].listed, id < w[i].nextId
  mem_iff : ∀ id < w[i].nextId, id ∈ w[i].listed ↔ w[i].isActive id = true ∨ kept id
  shown : Text.describe w[i] = .record "Observable"
    [("value", Text.describe w[i].value), ("version", .number w[i].version),
      ("subscribers", .number (w[i].nextId - (List.range w[i].nextId).countP
        fun id => decide (w[i].isActive id = false ∧ ¬ kept id)))]

/-- What ending subscriptions to observable `i` does to its list. -/
structure World.Detaches (i : Fin n) (w : World n α) : Prop where
  /-- Exactly one entry is taken off, and all others stay in order. -/
  free : ∀ nested name id, w.subscriptions.get? name = some (i, id) → w[i].isActive id = true →
    w[i].isBorrowed = false →
      ∃ w' : World n α,
        ((language n α).perform nested (.subscription name .unsubscribe)).perform w =
          (.ok (.subscription .done), w') ∧
        (∃ early late, w[i].listed = early ++ id :: late ∧ w'[i].listed = early ++ late) ∧
        ∀ j, w'[i].isActive j = (w[i].isActive j && j != id)
  held : ∀ nested name id, w.subscriptions.get? name = some (i, id) → w[i].isActive id = true →
    w[i].isBorrowed = true →
      ∃ w' : World n α,
        ((language n α).perform nested (.subscription name .unsubscribe)).perform w =
          (.error .panic, w') ∧
        w'[i].listed = w[i].listed ∧ ∀ j, w'[i].isActive j = (w[i].isActive j && j != id)
  again : ∀ nested name id, w.subscriptions.get? name = some (i, id) → w[i].isActive id = false →
    ((language n α).perform nested (.subscription name .unsubscribe)).perform w =
      (.ok (.subscription .done), w)

/-- Subscribing to observable `i` fails if and only if the value is borrowed.  If it succeeds, the next
    number is given. -/
structure World.Subscribes (budget : Nat) (i : Fin n) (w : World n α) : Prop where
  held : ∀ handle name rules, w.target? handle = some i → w[i].isBorrowed = true →
    ((language n α).exec (budget + 1) (.act handle (.subscribe name rules))).perform w =
      (.error .panic, w.record (.began (.act handle (.subscribe name rules))))
  free : ∀ handle name rules, w.target? handle = some i → w[i].isBorrowed = false →
    (((language n α).exec (budget + 1) (.act handle (.subscribe name rules))).perform w).1
        ≠ .error .panic ∧
      ∃ later, (((language n α).exec (budget + 1)
        (.act handle (.subscribe name rules))).perform w).2.history i =
          w.history i ++ .registered w[i].nextId :: later

theorem lists_of_tidy {kept : Nat → Prop} {w : World n α} (tidy : w[i].Tidy)
    (unlost : ¬ (strays i fun id listed => listed ↔ kept id).lost w) : w.Lists i kept := by
  classical
  have mem (id : Nat) (known : id < w[i].nextId) :
      id ∈ w[i].listed ↔ w[i].isActive id = true ∨ kept id := by
    cases on : w[i].isActive id with
    | true => simp [tidy.active id on]
    | false =>
      have fits := Classical.not_not.1 fun stray => unlost ⟨id, known, on, stray⟩
      simpa using fits
  refine ⟨tidy.ascending, tidy.below, mem, ?_⟩
  -- Whoever is missing has ended and was not kept.
  have missing : (fun id => !decide (w[i].isActive id = true ∨ kept id)) =
      fun id => decide (w[i].isActive id = false ∧ ¬ kept id) := by
    funext id
    simp
  have count := tidy.length_listed (p := fun id => decide (w[i].isActive id = true ∨ kept id))
    (by simpa using mem)
  rw [missing] at count
  have shown : (w[i].listed.length : Int) = w[i].nextId - (List.range w[i].nextId).countP
      fun id => decide (w[i].isActive id = false ∧ ¬ kept id) := by
    omega
  rw [← shown]
  rfl

theorem detaches_of_tidy {w : World n α} (tidy : w[i].Tidy) : w.Detaches i := by
  refine ⟨fun nested name id kept on free => ?_, fun nested name id kept on held => ?_,
    fun nested name id kept off => ?_⟩
  · obtain ⟨w', cell, ran⟩ := perform_quit kept on
    obtain ⟨early, late, split, rest⟩ := tidy.split_listed on
    refine ⟨w', by rw [ran, free]; rfl, ⟨early, late, split, ?_⟩, fun j => ?_⟩
    · rw [cell, listed_quit_free free, rest]
    · rw [cell, isActive_quit]
  · obtain ⟨w', cell, ran⟩ := perform_quit kept on
    refine ⟨w', by rw [ran, held]; rfl, ?_, fun j => ?_⟩
    · rw [cell, listed_quit_borrowed held]
    · rw [cell, isActive_quit]
  · rw [perform_unsubscribe kept, Act.perform_map, Place.perform_unsubscribe_inactive off]
    rfl

omit [Text.Describe α] in
theorem subscribe_registers {call call' : Nat → Listener (Step α) α → α → Act (World n α) Unit}
    (served : (place i).Served (writing n α) call call') {w : World n α}
    (free : w[i].isBorrowed = false) (l : Listener (Step α) α) :
    (((place i).subscribe call l).perform w).1 ≠ .error .panic ∧
      ∃ later, (((place i).subscribe call l).perform w).2.history i =
        w.history i ++ .registered w[i].nextId :: later := by
  rw [(recorded i).perform_subscribe_free free, Act.perform_map]
  have calm : (((place i).deliver call none w[i].nextId w[i].value).perform
      ((place i).enlisted l w)).1 ≠ .error .panic := Place.deliver_ne_panic _ _ _ _
  have first := Place.deliver_carries (unwatched_writing i).quiescent (served w[i].nextId) none
    w[i].value ((place i).enlisted l w) trivial
  obtain ⟨later, grown⟩ : ((place i).enlisted l w).history i <+: World.history i _ :=
    first.leads.filterMap _
  refine ⟨?_, later, Eq.trans grown.symm ?_⟩
  · show Except.map _ (((place i).deliver call none w[i].nextId w[i].value).perform _).1 ≠ _
    generalize (((place i).deliver call none w[i].nextId w[i].value).perform _).1 = ending at calm
    rcases ending with (_ | _) | _
    · exact absurd rfl calm
    · exact nofun
    · exact nofun
  · rw [Place.enlisted, (recorded i).past_note, (recorded i).past_adjust]
    simp [place, getElem_cells]

theorem World.subscribes (budget : Nat) (i : Fin n) (w : World n α) : w.Subscribes budget i := by
  refine ⟨fun handle name rules reaches held => ?_, fun handle name rules reaches free => ?_⟩
  · exact (World.refuses budget held).subscribe handle name rules reaches
  · have heeds := heeds_writing (n := n) (α := α)
    have served := served_of_unwatched (heeds.nested (P := fun _ => True)
      (heeds.exec (fun _ _ => trivial) budget)) (unwatched_writing i)
        fun _ _ => admits_unwritten fun _ => rfl
    have began : (w.record (.began (.act handle (.subscribe name rules)))).history i =
        w.history i := by
      simp [history_record, occurrence?]
    obtain ⟨calm, later, grown⟩ := subscribe_registers served
      (w := w.record (.began (.act handle (.subscribe name rules)))) free (.script name rules)
    rw [began] at grown
    rw [perform_exec_act reaches, Act.perform_map]
    simp only [Action.perform, Act.perform_bind]
    rcases ran : ((place i).subscribe _ (.script name rules)).perform
      (w.record (.began (.act handle (.subscribe name rules)))) with ⟨e | id, u⟩
    all_goals rw [ran] at calm grown
    · exact ⟨by simpa [Except.map] using calm, later, grown⟩
    -- Keeping the subscription under its name is no part of the history.
    · exact ⟨by simp [Except.map], later, grown⟩

/-! ## Runs -/

section

variable (values : Vector α n) (steps : List (Step α)) (i : Fin n) (id : Nat)

/-- The subscription of subscriber `id` does not end in the course of the run. -/
def NeverEnds : Prop :=
  (language n α).Whenever (fun w => ¬ w.Ends i id) (stepsWeight steps) steps (World.start values)

/-- If the subscription of subscriber `id` ends in the course of the run, then while the value is
    borrowed. -/
def EndsHeld : Prop :=
  (language n α).Whenever (fun w => w.Ends i id → w[i].isBorrowed = true) (stepsWeight steps) steps
    (World.start values)

end

variable {values : Vector α n} {steps : List (Step α)} {fits : Nat → Prop → Prop}
  {P : World n α → Prop}

omit [Text.Describe α] in
theorem start_tidy (values : Vector α n) (i : Fin n) :
    (settling i).sound (World.start values) := by
  show (World.start values)[i].Tidy
  rw [getElem_start]
  exact ⟨.nil, nofun, fun id on => by simp [Observable.new, isActive] at on⟩

theorem run_tidy (values : Vector α n) (steps : List (Step α)) (i : Fin n) :
    (run values steps).2[i].Tidy := by
  have fitting : Fitting i (fun _ _ => True) fun _ : World n α => True :=
    fun _ _ _ => ⟨fun _ _ _ => trivial, fun _ => trivial⟩
  exact ((alert_strays fitting).run (stepsWeight steps) steps (start_tidy values i)).1

/-- Whether all subscriptions end at moments that fit can be read off the last world. -/
theorem whenever_iff_fits (hP : Fitting i fits P) :
    (language n α).Whenever P (stepsWeight steps) steps (World.start values) ↔
      ¬ (strays i fits).lost (run values steps).2 := by
  refine (alert_strays hP).whenever_iff (start_tidy values i) ?_ (run_affords values steps).1
  rintro ⟨id, known, -⟩
  rw [getElem_start] at known
  exact absurd known (Nat.not_lt_zero id)

theorem neverEnds_iff {id : Nat} (known : id < (run values steps).2[i].nextId) :
    NeverEnds values steps i id ↔ (run values steps).2[i].isActive id = true := by
  have fitting : Fitting i (fun j _ => j ≠ id) fun w : World n α => ¬ w.Ends i id :=
    fun w _ _ => ⟨fun never j ends same => never (same ▸ ends), fun h ends => h id ends rfl⟩
  rw [NeverEnds, whenever_iff_fits fitting]
  constructor
  · intro unlost
    cases on : (run values steps).2[i].isActive id with
    | true => rfl
    | false => exact absurd ⟨id, known, on, fun other => other rfl⟩ unlost
  · rintro on ⟨j, -, off, stray⟩
    obtain rfl : j = id := Classical.not_not.1 stray
    rw [on] at off
    cases off

/-- Whoever has ended while the value was borrowed is still listed, and nobody else who has ended. -/
theorem endsHeld_iff {id : Nat} (known : id < (run values steps).2[i].nextId)
    (off : (run values steps).2[i].isActive id = false) :
    EndsHeld values steps i id ↔ id ∈ (run values steps).2[i].listed := by
  have fitting : Fitting i (fun j held => j = id → held)
      fun w : World n α => w.Ends i id → w[i].isBorrowed = true :=
    fun w _ _ => ⟨fun held j ends same => held (same ▸ ends), fun h ends => h id ends rfl⟩
  rw [EndsHeld, whenever_iff_fits fitting]
  constructor
  · exact fun unlost => Classical.not_not.1 fun gone =>
      unlost ⟨id, known, off, fun h => gone (h rfl)⟩
  · rintro listed ⟨j, -, -, stray⟩
    exact stray fun same => same ▸ listed

/-- Whenever a step begins in a run, at whatever depth, and at the end of the run, the list of
    subscribers goes up, and all of its numbers have been given.  It holds a number that has been
    given if and only if the subscriber is active, or the subscription has ended while the value was
    borrowed, and the other ones are missing from the count that is shown.  Ending a subscription
    for the first time takes off exactly its own entry, unless the value is borrowed, and all others
    stay in order; ending it again changes nothing.  A subscriber is active as long as no step has
    ended the subscription and nobody has silenced it.  The numbers given are those of the
    successful subscriptions, in the order of registration, and subscribing fails if and only if the
    value is borrowed. -/
theorem list_follows_subscriptions (values : Vector α n) (steps : List (Step α)) (i : Fin n) :
    (language n α).Whenever
      (fun w => w.Lists i (EndsHeld values steps i) ∧ w.Detaches i ∧
        ∀ id, w.Ends i id → (EndsHeld values steps i id ↔ w[i].isBorrowed = true))
      (stepsWeight steps) steps (World.start values) ∧
    (run values steps).2.Lists i (EndsHeld values steps i) ∧
    (run values steps).2.Detaches i ∧
    (∀ id < (run values steps).2[i].nextId,
      (run values steps).2[i].isActive id = true ↔ NeverEnds values steps i id) ∧
    (language n α).Throughout
      (fun w => (w.history i).registered = List.range w[i].nextId ∧
        ∀ id < w[i].nextId, w[i].isActive id = true ↔ .silenced id ∉ w.history i)
      (stepsWeight steps) steps (World.start values) ∧
    ∀ (budget : Nat) (w : World n α), w.Subscribes budget i := by
  have fitting : Fitting i (fun id listed => listed ↔ EndsHeld values steps i id)
      fun w : World n α => w.Lists i (EndsHeld values steps i) ∧ w.Detaches i ∧
        ∀ id, w.Ends i id → (EndsHeld values steps i id ↔ w[i].isBorrowed = true) :=
    fun w tidy unlost =>
      ⟨fun ⟨_, _, ends⟩ id h => (ends id h).symm,
        fun h => ⟨lists_of_tidy tidy unlost, detaches_of_tidy tidy, fun id ends => (h id ends).symm⟩⟩
  have tidy := run_tidy values steps i
  -- An entry that is off the list without having ended at the right moment would be lost for good,
  -- and so the last world tells about all moments.
  have unlost : ¬ (strays i fun id listed => listed ↔ EndsHeld values steps i id).lost
      (run values steps).2 := by
    rintro ⟨id, known, off, stray⟩
    exact stray (endsHeld_iff known off).symm
  refine ⟨(whenever_iff_fits fitting).2 unlost, lists_of_tidy tidy unlost, detaches_of_tidy tidy,
    fun id known => (neverEnds_iff known).symm, ?_, fun budget w => w.subscribes budget i⟩
  refine (heeds_chronicle i (values.get i)).throughout (fun w agrees => ⟨agrees.nextId.symm, ?_⟩) _
    (fun _ _ => trivial) (start_agrees values i)
  exact fun id known => (agrees.active id).trans (and_iff_right (agrees.registered_iff.2 known))

/-- Of three subscriptions one ends while the value is borrowed, with a panic, and one afterwards. -/
example :
    let quiet (name : String) : Step String := .act 0 (.subscribe name [])
    let w := (run #v["a"] [quiet "x", quiet "y", quiet "z",
      .act 0 (.borrow [.subscription "x" .unsubscribe]), .subscription "y" .unsubscribe]).2
    w.cells[0].nextId = 3 ∧ w.cells[0].listed = [0, 2] ∧ w.cells[0].isActive 0 = false := by
  decide +kernel

end Observable.Scenario

end LiveState
