import LiveState.Proofs.Observable.Callbacks
import LiveState.Proofs.Observable.Loss
import LiveState.Proofs.Observable.Unsubscription

/-! # Subscriptions that have ended

When a subscription ends, its subscriber is either taken off the list or left on it, and so it remains.
So a list that is not as it should be shows that some subscription has ended at a wrong moment
(`strays`), and a scenario is alert to that.
-/

namespace LiveState

namespace Observable

variable {α κ : Type} {o o' o'' : Observable α κ} {id : Nat}

theorem lt_nextId_of_isActive (on : o.isActive id = true) : id < o.nextId := by
  refine Nat.lt_of_not_le fun beyond => ?_
  have nobody : o.subscribers[id]? = none := Array.getElem?_eq_none beyond
  simp [isActive, nobody] at on

theorem nextId_register (o : Observable α κ) (callback : κ) :
    (o.register callback).nextId = o.nextId + 1 := by
  simp [register, nextId]

/-- The list is in the order of registration, and whoever is active is listed. -/
structure Tidy (o : Observable α κ) : Prop where
  ascending : o.listed.Pairwise (· < ·)
  below : ∀ id ∈ o.listed, id < o.nextId
  active : ∀ id, o.isActive id = true → id ∈ o.listed

/-- What an observable is later on: numbers are not given again, and whoever is not active any more
    remains so, on the list or off it. -/
structure Settles (o o' : Observable α κ) : Prop where
  nextId : o.nextId ≤ o'.nextId
  inactive : ∀ id < o.nextId, o.isActive id = false → o'.isActive id = false
  listed : ∀ id < o.nextId, o.isActive id = false → (id ∈ o'.listed ↔ id ∈ o.listed)

namespace Settles

theorem refl (o : Observable α κ) : Settles o o :=
  ⟨Nat.le_refl _, fun _ _ off => off, fun _ _ _ => Iff.rfl⟩

theorem trans (h : Settles o o') (k : Settles o' o'') : Settles o o'' where
  nextId := Nat.le_trans h.nextId k.nextId
  inactive id known off :=
    k.inactive id (Nat.lt_of_lt_of_le known h.nextId) (h.inactive id known off)
  listed id known off :=
    (k.listed id (Nat.lt_of_lt_of_le known h.nextId) (h.inactive id known off)).trans
      (h.listed id known off)

end Settles

/-! ## Changes that end no subscription -/

/-- A change of an observable that ends no subscription. -/
structure Sustains (f : Observable α κ → Observable α κ) : Prop where
  tidy : ∀ o, Tidy o → Tidy (f o)
  settles : ∀ o, Settles o (f o)
  ended : ∀ o id, id < (f o).nextId → (f o).isActive id = false →
    id < o.nextId ∧ o.isActive id = false

theorem Sustains.of_eq {f : Observable α κ → Observable α κ} (nextId : ∀ o, (f o).nextId = o.nextId)
    (listed : ∀ o, (f o).listed = o.listed) (active : ∀ o id, (f o).isActive id = o.isActive id) :
    Sustains f where
  tidy o h := by
    refine ⟨?_, fun id hid => ?_, fun id on => ?_⟩
    · rw [listed]
      exact h.ascending
    · rw [listed] at hid
      rw [nextId]
      exact h.below id hid
    · rw [active] at on
      rw [listed]
      exact h.active id on
  settles o := by
    refine ⟨Nat.le_of_eq (nextId o).symm, fun id _ off => ?_, fun id _ _ => by rw [listed]⟩
    rw [active]
    exact off
  ended o id known off := by
    rw [nextId] at known
    rw [active] at off
    exact ⟨known, off⟩

theorem sustains_register (callback : κ) :
    Sustains fun o : Observable α κ => o.register callback where
  tidy o h := by
    refine ⟨?_, fun id hid => ?_, fun id on => ?_⟩
    · refine List.pairwise_append.2 ⟨h.ascending, List.pairwise_singleton _ _, fun id hid j hj => ?_⟩
      rw [List.mem_singleton.1 hj]
      exact h.below id hid
    · rw [nextId_register]
      rcases List.mem_append.1 hid with hid | hid
      · exact Nat.lt_succ_of_lt (h.below id hid)
      · rw [List.mem_singleton.1 hid]
        exact Nat.lt_succ_self _
    · by_cases new : id = o.nextId
      · exact List.mem_append_right _ (List.mem_singleton.2 new)
      · rw [isActive_register_of_ne new] at on
        exact List.mem_append_left _ (h.active id on)
  settles o := by
    refine ⟨by rw [nextId_register]; exact Nat.le_succ _, fun id known off => ?_,
      fun id known _ => ?_⟩
    · rw [isActive_register_of_ne (Nat.ne_of_lt known), off]
    · simp [register, Nat.ne_of_lt known]
  ended o id known off := by
    -- The new subscriber is active.
    have old : id ≠ o.nextId := fun new => by simp [new] at off
    rw [isActive_register_of_ne old] at off
    rw [nextId_register] at known
    exact ⟨by omega, off⟩

/-! ## The end of a subscription -/

/-- What is left of an observable when the subscription of subscriber `id` ends.  While the value is
    borrowed, the entry stays. -/
def quit (o : Observable α κ) (id : Nat) : Observable α κ :=
  if o.isBorrowed then o.silence id else (o.silence id).delist id

theorem nextId_quit (o : Observable α κ) (id : Nat) : (o.quit id).nextId = o.nextId := by
  unfold quit
  split <;> simp [silence, delist, nextId]

theorem isActive_quit_self (o : Observable α κ) (id : Nat) : (o.quit id).isActive id = false := by
  unfold quit
  split <;> exact isActive_silence_self o id

theorem isActive_quit_of_ne {j : Nat} (h : j ≠ id) (o : Observable α κ) :
    (o.quit id).isActive j = o.isActive j := by
  unfold quit
  split <;> exact isActive_silence_of_ne h o

theorem isActive_quit (o : Observable α κ) (id j : Nat) :
    (o.quit id).isActive j = (o.isActive j && j != id) := by
  by_cases same : j = id
  · simp [same, isActive_quit_self]
  · simp [isActive_quit_of_ne same, same]

theorem listed_quit_borrowed (held : o.isBorrowed = true) (id : Nat) :
    (o.quit id).listed = o.listed := by
  rw [quit, if_pos held]
  rfl

theorem listed_quit_free (free : o.isBorrowed = false) (id : Nat) :
    (o.quit id).listed = o.listed.filter (· != id) := by
  rw [quit, if_neg (by simp [free])]
  rfl

theorem mem_listed_quit {j : Nat} :
    j ∈ (o.quit id).listed ↔ j ∈ o.listed ∧ (j = id → o.isBorrowed = true) := by
  cases held : o.isBorrowed with
  | true => simp [listed_quit_borrowed held]
  | false => simp [listed_quit_free held]

theorem Tidy.quit (h : o.Tidy) (id : Nat) : (o.quit id).Tidy := by
  refine ⟨?_, fun j hj => ?_, fun j on => ?_⟩
  · cases held : o.isBorrowed with
    | true =>
      rw [listed_quit_borrowed held]
      exact h.ascending
    | false =>
      rw [listed_quit_free held]
      exact h.ascending.filter _
  · rw [nextId_quit]
    exact h.below j (mem_listed_quit.1 hj).1
  · have other : j ≠ id := fun same => by
      rw [same, isActive_quit_self] at on
      cases on
    rw [isActive_quit_of_ne other] at on
    exact mem_listed_quit.2 ⟨h.active j on, fun same => absurd same other⟩

theorem settles_quit (on : o.isActive id = true) : o.Settles (o.quit id) := by
  have other {j : Nat} (off : o.isActive j = false) : j ≠ id := fun same => by
    rw [same, on] at off
    cases off
  refine ⟨Nat.le_of_eq (nextId_quit o id).symm, fun j _ off => ?_, fun j _ off => ?_⟩
  · rw [isActive_quit_of_ne (other off), off]
  · rw [mem_listed_quit]
    exact ⟨fun hj => hj.1, fun hj => ⟨hj, fun same => absurd same (other off)⟩⟩

theorem Tidy.split_listed (h : o.Tidy) (on : o.isActive id = true) :
    ∃ early late, o.listed = early ++ id :: late ∧
      o.listed.filter (· != id) = early ++ late := by
  obtain ⟨early, late, split⟩ := List.append_of_mem (h.active id on)
  refine ⟨early, late, split, ?_⟩
  have ascending := h.ascending
  rw [split, List.pairwise_append, List.pairwise_cons] at ascending
  obtain ⟨-, ⟨after, -⟩, before⟩ := ascending
  -- Numbers go up, so that this one stands nowhere else.
  have first : early.filter (· != id) = early :=
    List.filter_eq_self.2 fun j hj => by simpa using Nat.ne_of_lt (before j hj id List.mem_cons_self)
  have last : late.filter (· != id) = late :=
    List.filter_eq_self.2 fun j hj => by simpa using Nat.ne_of_gt (after j hj)
  simp [split, List.filter_append, first, last]

end Observable

namespace Observable.Scenario

open Course Course.Loss

variable {n : Nat} {α : Type} {i : Fin n}

/-- The course on which the list of observable `i` is tidy, and whoever has ended stays as it was
    left. -/
def settling (i : Fin n) : Course (World n α) where
  sound w := w[i].Tidy
  leads _ w w' := w[i].Settles w'[i]
  refl _ := .refl _
  trans h k := h.trans k

/-- Somebody is not active any more, and it is not as `fits` says whether it is listed. -/
def strays (i : Fin n) (fits : Nat → Prop → Prop) : (settling (α := α) i).Loss where
  lost w := ∃ id < w[i].nextId, w[i].isActive id = false ∧ ¬ fits id (id ∈ w[i].listed)
  stays := by
    rintro b w w' settles ⟨id, known, off, stray⟩
    refine ⟨id, Nat.lt_of_lt_of_le known settles.nextId, settles.inactive id known off, ?_⟩
    rwa [settles.listed id known off]

variable {fits : Nat → Prop → Prop}

theorem spares_aside {f : World n α → World n α} (same : ∀ w, (f w)[i] = w[i]) :
    (strays i fits).Spares f where
  admits w hw := by
    refine ⟨?_, ?_⟩
    · show (f w)[i].Tidy
      rw [same]
      exact hw
    · show w[i].Settles (f w)[i]
      rw [same]
      exact .refl _
  keeps w _ lost := by
    obtain ⟨id, known, off, stray⟩ := lost
    rw [same] at known off stray
    exact ⟨id, known, off, stray⟩

theorem spares_adjust (j : Fin n)
    {f : Observable α (Listener (Step α) α) → Observable α (Listener (Step α) α)}
    (h : Sustains f) : (strays i fits).Spares ((place j).adjust f) := by
  by_cases here : j = i
  · subst here
    have cell (w : World n α) : ((place j).adjust f w)[j] = f w[j] := by
      rw [getElem_adjust, if_pos rfl]
    refine ⟨fun w hw => ⟨?_, ?_⟩, fun w _ lost => ?_⟩
    · show ((place j).adjust f w)[j].Tidy
      rw [cell]
      exact h.tidy _ hw
    · show w[j].Settles ((place j).adjust f w)[j]
      rw [cell]
      exact h.settles _
    -- Whoever has ended by now had ended before.
    · obtain ⟨id, known, off, stray⟩ := lost
      rw [cell] at known off stray
      obtain ⟨known, off⟩ := h.ended _ id known off
      rw [(h.settles w[j]).listed id known off] at stray
      exact ⟨id, known, off, stray⟩
  · exact spares_aside fun w => by rw [getElem_adjust, if_neg here]

/-- Nothing is lost by what the operations do to the observables, as long as no subscription ends. -/
theorem spared (j : Fin n) : (place j).Spared (strays (α := α) i fits) where
  store _ := spares_adjust j (.of_eq (fun _ => rfl) (fun _ => rfl) fun _ _ => rfl)
  register callback := spares_adjust j (sustains_register callback)
  adjustCallback id f := spares_adjust j
    (.of_eq (fun _ => by simp [adjustCallback, Observable.nextId]) (fun _ => rfl)
      fun o k => isActive_adjustCallback o id k f)
  borrow := spares_adjust j (.of_eq (fun _ => rfl) (fun _ => rfl) fun _ _ => rfl)
  release := spares_adjust j (.of_eq (fun _ => rfl) (fun _ => rfl) fun _ _ => rfl)
  note _ := spares_aside fun _ => rfl

theorem spares_handles (f : World n α → Array (Option (Fin n))) :
    (strays i fits).Spares fun w => { w with handles := f w } := spares_aside fun _ => rfl

theorem spares_subscriptions (f : World n α → OrderedMap String (Fin n × Nat)) :
    (strays i fits).Spares fun w => { w with subscriptions := f w } := spares_aside fun _ => rfl

theorem withHandle_alertFrom {f f' : Fin n → Act (World n α) (Reply α)} {w : World n α}
    (hw : w[i].Tidy) (h : ∀ j, (strays i fits).AlertFrom w (f j) (f' j)) (handle : Nat) :
    (strays i fits).AlertFrom w (withHandle handle f) (withHandle handle f') := by
  refine AlertFrom.look ?_
  cases w.target? handle with
  | none => exact .pure hw _
  | some j => exact h j

theorem unsubscribe_alertFrom {j : Fin n} {id : Nat} {w : World n α} (hw : w[i].Tidy)
    (other : w[j].isActive id = true → j ≠ i) :
    (strays i fits).AlertFrom w ((place j).unsubscribe id) ((place j).unsubscribe id) := by
  refine Place.alertFrom_look ?_
  cases on : ((place j).cell w).isActive id with
  | false => exact .pure hw ()
  | true =>
    have aside (f : Observable α (Listener (Step α) α) → Observable α (Listener (Step α) α)) :
        (strays i fits).Spares ((place j).adjust f) :=
      spares_aside fun w => by rw [getElem_adjust, if_neg (other on)]
    have note (o : Occurrence α) : (strays i fits).Spares ((place j).note o) :=
      (spared j).note o
    exact ((aside _).alert.bind fun _ => (note _).alert.bind fun _ =>
      Place.exclusive_alert.bind fun _ => (aside _).alert.bind fun _ => (note _).alert) w hw

/-- What is lost by the end of a subscription, if anything. -/
theorem lost_of_quit {id : Nat} {w w' : World n α} (tidy : w[i].Tidy)
    (on : w[i].isActive id = true) (cell : w'[i] = w[i].quit id) :
    (strays i fits).lost w' ↔ (strays i fits).lost w ∨ ¬ fits id (w[i].isBorrowed = true) := by
  have known := lt_nextId_of_isActive on
  have left : (id ∈ (w[i].quit id).listed) = (w[i].isBorrowed = true) := by
    simp [mem_listed_quit, tidy.active id on]
  have others {j : Nat} (other : j ≠ id) : (j ∈ (w[i].quit id).listed) = (j ∈ w[i].listed) := by
    simp [mem_listed_quit, other]
  simp only [strays, cell, nextId_quit]
  -- Only the entry of `id` has changed: it was listed, and is so still if the value is borrowed.
  constructor
  · rintro ⟨j, small, off, stray⟩
    by_cases same : j = id
    · subst same
      rw [left] at stray
      exact .inr stray
    · rw [isActive_quit_of_ne same] at off
      rw [others same] at stray
      exact .inl ⟨j, small, off, stray⟩
  · rintro (⟨j, small, off, stray⟩ | stray)
    · have other : j ≠ id := fun same => by
        rw [same, on] at off
        cases off
      refine ⟨j, small, ?_, ?_⟩
      · rw [isActive_quit_of_ne other, off]
      · rwa [others other]
    · refine ⟨id, known, isActive_quit_self _ _, ?_⟩
      rwa [left]

/-! ## Steps -/

/-- The step that has just begun ends the subscription of subscriber `id`, which has not ended
    before. -/
def World.Ends (i : Fin n) (id : Nat) (w : World n α) : Prop :=
  ∃ name, w.journal.back? = some (.began (.subscription name .unsubscribe)) ∧
    w.subscriptions.get? name = some (i, id) ∧ w[i].isActive id = true

theorem ends_began {s : Step α} {id : Nat} {w : World n α} :
    (w.record (.began s)).Ends i id ↔
      ∃ name, s = .subscription name .unsubscribe ∧ w.subscriptions.get? name = some (i, id) ∧
        w[i].isActive id = true := by
  simp only [World.Ends, World.record, Array.back?_push, Option.some.injEq, Event.began.injEq]
  rfl

variable [Text.Describe α]

theorem perform_unsubscribe {name : String} {id : Nat} {w : World n α}
    (kept : w.subscriptions.get? name = some (i, id))
    (nested : Nested (World n α) (Step α)) :
    ((language n α).perform nested (.subscription name .unsubscribe)).perform w =
      ((fun _ => Reply.subscription .done) <$> (place i).unsubscribe id).perform w := by
  simp only [language, perform, Act.perform_bind, Act.perform_view, kept,
    perform_request_unsubscribe, Functor.map_map]

/-- The end of a subscription, however the value is held. -/
theorem perform_quit {name : String} {id : Nat} {w : World n α}
    (kept : w.subscriptions.get? name = some (i, id)) (on : w[i].isActive id = true) :
    ∃ w' : World n α, w'[i] = w[i].quit id ∧ ∀ nested,
      ((language n α).perform nested (.subscription name .unsubscribe)).perform w =
        (if w[i].isBorrowed then .error .panic else .ok (.subscription .done), w') := by
  have hushed : ((place i).hushed id w)[i] = w[i].silence id := (recorded i).cell_hushed id w
  cases held : w[i].isBorrowed with
  | true =>
    refine ⟨(place i).hushed id w, by rw [hushed, quit, if_pos held], fun nested => ?_⟩
    rw [perform_unsubscribe kept, Act.perform_map, (recorded i).perform_unsubscribe_borrowed on held]
    rfl
  | false =>
    refine ⟨(place i).note (.delisted id) ((place i).adjust (·.delist id) ((place i).hushed id w)),
      ?_, fun nested => ?_⟩
    · rw [quit, if_neg (by simp [held]), ← hushed]
      exact ((recorded i).cell_note _ _).trans ((recorded i).cell_adjust _ _)
    · rw [perform_unsubscribe kept, Act.perform_map, (recorded i).perform_unsubscribe_free on held]
      rfl

/-- A step that ends no subscription to observable `i` is alert, if the steps that it sets off are. -/
theorem perform_alertFrom {nested nested' : Nested (World n α) (Step α)}
    (hn : Nested.Alert (strays i fits) nested nested') {s : Step α} {w : World n α}
    (hw : w[i].Tidy) (ends : ∀ id, ¬ (w.record (.began s)).Ends i id) :
    (strays i fits).AlertFrom (w.record (.began s)) ((language n α).perform nested s)
      ((language n α).perform nested' s) := by
  have hu : (settling i).sound (w.record (.began s)) := hw
  cases s with
  | act handle action =>
    refine withHandle_alertFrom hu (fun j => AlertFrom.map ?_ _) handle
    exact (spared j).perform hn (fun _ _ hv => .pure hv ())
      (fun name id => spares_subscriptions fun w => w.subscriptions.insert name (j, id)) action _ hu
  | subscription name request =>
    refine AlertFrom.look ?_
    cases kept : (w.record (.began (.subscription name request))).subscriptions.get? name with
    | none => exact .pure hu _
    | some entry =>
      obtain ⟨j, id⟩ := entry
      refine (Subscription.Request.perform_alertFrom hu (spares_subscriptions _) fun asked => ?_).map _
      subst asked
      refine unsubscribe_alertFrom hu fun on here => ?_
      subst here
      exact ends id (ends_began.2 ⟨name, rfl, kept, on⟩)
  | clone handle =>
    refine withHandle_alertFrom hu (fun j => AlertFrom.look ?_) handle
    exact ((spares_handles _).alert _ hu).bind fun _ _ _ hv => .pure hv _
  | drop handle =>
    refine withHandle_alertFrom hu (fun j => ?_) handle
    exact ((spares_handles _).alert _ hu).bind fun _ _ _ hv => .pure hv _
  | panic handle => exact withHandle_alertFrom hu (fun j => .panic hu) handle

/-- As long as nothing is lost, `P` says nothing else than that a subscription which is about to
    end does so at a moment that fits. -/
def Fitting (i : Fin n) (fits : Nat → Prop → Prop) (P : World n α → Prop) : Prop :=
  ∀ w : World n α, w[i].Tidy → ¬ (strays i fits).lost w →
    (P w ↔ ∀ id, w.Ends i id → fits id (w[i].isBorrowed = true))

variable {P : World n α → Prop}

theorem quit_alertFrom (hP : Fitting i fits P) {nested nested' : Nested (World n α) (Step α)}
    {name : String} {id : Nat} {w : World n α} (hw : w[i].Tidy)
    (began : w.journal.back? = some (.began (.subscription name .unsubscribe)))
    (kept : w.subscriptions.get? name = some (i, id)) (on : w[i].isActive id = true) :
    (strays i fits).AlertFrom w ((language n α).perform nested (.subscription name .unsubscribe))
      (((language n α).guarded P).perform nested' (.subscription name .unsubscribe)) := by
  -- The step ends this subscription only.
  have only : (∀ j, w.Ends i j → fits j (w[i].isBorrowed = true)) ↔
      fits id (w[i].isBorrowed = true) := by
    refine ⟨fun all => all id ⟨name, began, kept, on⟩, fun h j ⟨_, began', kept', _⟩ => ?_⟩
    cases began.symm.trans began'
    cases kept.symm.trans kept'
    exact h
  obtain ⟨w', cell, ran⟩ := perform_quit kept on
  have loses : (strays i fits).lost w' ↔ _ := lost_of_quit hw on cell
  refine Language.alertFrom_guarded ⟨rfl, ?_, ?_⟩ (fun unlost passes => .inl ⟨?_, ?_⟩)
    fun unlost refused => ?_
  · rw [ran]
    show w'[i].Tidy
    rw [cell]
    exact hw.quit id
  · rw [ran]
    show w[i].Settles w'[i]
    rw [cell]
    exact settles_quit on
  · rw [ran, ran]
  · rw [ran, loses]
    have fit := only.1 ((hP w hw unlost).1 passes)
    exact fun lost => lost.elim unlost (absurd fit)
  · rw [ran, loses]
    exact .inr fun fit => refused ((hP w hw unlost).2 (only.2 fit))

/-- Whoever refuses subscriptions to end at moments that do not fit is alert to lists that are not as
    they should be. -/
theorem alert_strays (hP : Fitting i fits P) : (language n α).Alert (strays i fits) P where
  cut w _ := .refl _
  record e := spares_aside fun _ => rfl
  perform nested nested' hn s w hw := by
    have hu : (w.record (.began s))[i].Tidy := hw
    by_cases ends : ∃ id, (w.record (.began s)).Ends i id
    · obtain ⟨id, name, began, kept, on⟩ := ends
      obtain rfl : s = .subscription name .unsubscribe := by
        simpa [World.record] using began
      exact quit_alertFrom hP hu began kept on
    · have alert := perform_alertFrom hn hw fun id h => ends ⟨id, h⟩
      refine Language.alertFrom_guarded alert.carries (fun unlost _ => alert.alert unlost)
        fun unlost refused => ?_
      exact absurd ((hP _ hu unlost).2 fun id h => absurd ⟨id, h⟩ ends) refused

end Observable.Scenario

end LiveState
