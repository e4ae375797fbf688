import LiveState.Proofs.Observable.Unsubscription

/-! # Held values

While an observable is read in place, nothing happens to it but that subscribers are silenced, whatever
is tried at whatever depth.
-/

namespace LiveState.Observable.Scenario

open Course

variable {n : Nat} {α : Type} {i : Fin n}

/-- Nothing has happened to observable `i` but that some subscribers were silenced. -/
structure Unmoved (i : Fin n) (w w' : World n α) : Prop where
  value : w'[i].value = w[i].value
  version : w'[i].version = w[i].version
  nextId : w'[i].nextId = w[i].nextId
  listed : w'[i].listed = w[i].listed
  callbacks : ∀ id, w'[i].callback? id = w[i].callback? id
  silenced : ∃ ids : List Nat, w'.history i = w.history i ++ ids.map .silenced ∧
    ∀ id, w'[i].isActive id = true ↔ w[i].isActive id = true ∧ id ∉ ids

namespace Unmoved

variable {u v w : World n α}

theorem refl (i : Fin n) (w : World n α) : Unmoved i w w :=
  ⟨rfl, rfl, rfl, rfl, fun _ => rfl, [], by simp, by simp⟩

theorem congr (h : Unmoved i w v) (history : u.history i = v.history i)
    (cell : ∃ k, u[i] = { v[i] with borrows := k }) : Unmoved i w u := by
  obtain ⟨k, cell⟩ := cell
  obtain ⟨value, version, nextId, listed, callbacks, ids, past, active⟩ := h
  refine ⟨?_, ?_, ?_, ?_, fun id => ?_, ids, history.trans past, fun id => ?_⟩
  all_goals rw [cell]
  · exact value
  · exact version
  · exact nextId
  · exact listed
  · exact callbacks id
  · exact active id

theorem hushed (h : Unmoved i w v) (id : Nat) : Unmoved i w ((place i).hushed id v) := by
  have cell : ((place i).hushed id v)[i] = v[i].silence id :=
    (recorded i).cell_hushed id v
  obtain ⟨value, version, nextId, listed, callbacks, ids, past, active⟩ := h
  refine ⟨?_, ?_, ?_, ?_, fun j => ?_, ids ++ [id], ?_, fun j => ?_⟩
  · rw [cell]
    exact value
  · rw [cell]
    exact version
  · rw [cell, ← nextId]
    simp [silence, Observable.nextId]
  · rw [cell]
    exact listed
  · rw [cell, callback?_silence]
    exact callbacks j
  · rw [Place.hushed, (recorded i).past_note, (recorded i).past_adjust, past]
    simp
  · rw [cell]
    by_cases same : j = id
    · simp [same]
    · rw [isActive_silence_of_ne same, active j]
      simp [same]

end Unmoved

/-- The course on which observable `i` is held since `w`. -/
def held (i : Fin n) (w : World n α) : Course (World n α) where
  sound v := v[i].isBorrowed = true ∧ Unmoved i w v
  leads _ u v := v[i].borrows = u[i].borrows
  refl _ := rfl
  trans h k := k.trans h

variable {w : World n α}

theorem admits_held {f : World n α → World n α} (cell : ∀ v, (f v)[i] = v[i])
    (history : ∀ v, (f v).history i = v.history i) : (held i w).Admits f := by
  rintro v ⟨borrowed, unmoved⟩
  refine ⟨⟨by rw [cell]; exact borrowed, unmoved.congr (history v) ⟨v[i].borrows, cell v⟩⟩, ?_⟩
  show (f v)[i].borrows = v[i].borrows
  rw [cell]

theorem clerical_held : Clerical (held i w) :=
  ⟨fun _ => admits_held (fun _ => rfl) fun _ => rfl,
    fun _ => admits_held (fun _ => rfl) fun _ => rfl⟩

theorem admits_adjust_held {j : Fin n} (other : j ≠ i)
    (f : Observable α (Listener (Step α) α) → Observable α (Listener (Step α) α)) :
    (held i w).Admits ((place j).adjust f) :=
  admits_held (fun v => by rw [getElem_adjust, if_neg other]) fun _ => rfl

theorem unwatched_held {j : Fin n} (other : j ≠ i) : (place j).Unwatched (held i w) where
  store _ := admits_adjust_held other _
  silence _ := admits_adjust_held other _
  delist _ := admits_adjust_held other _
  note o := admits_held (fun _ => rfl) fun v => by
    simp [place, history_record, occurrence?, other]

theorem held_borrow {u : World n α} (unmoved : Unmoved i w u) :
    (held i w).sound ((place i).adjust (·.borrow) u) := by
  have cell : ((place i).adjust (·.borrow) u)[i] = u[i].borrow :=
    (recorded i).cell_adjust _ u
  exact ⟨by rw [cell]; exact isBorrowed_borrow _, unmoved.congr rfl ⟨_, cell⟩⟩

theorem borrowing_held {m m' : Act (World n α) Unit} (h : (held i w).Carries m m') :
    (held i w).Carries ((place i).borrowing m) ((place i).borrowing m') := by
  rintro u ⟨borrowed, unmoved⟩
  obtain ⟨same, ⟨-, unmoved'⟩, level⟩ := h _ (held_borrow unmoved)
  have release (v : World n α) : ((place i).adjust (·.release) v)[i] = v[i].release :=
    (recorded i).cell_adjust _ v
  -- What was borrowed is given back, so that the value is held as often as before.
  have back : ((place i).adjust (·.release)
      (m.perform ((place i).adjust (·.borrow) u)).2)[i].borrows = u[i].borrows := by
    have inside : (m.perform ((place i).adjust (·.borrow) u)).2[i].borrows =
        ((place i).adjust (·.borrow) u)[i].borrows := level
    rw [release, Observable.release]
    show (m.perform ((place i).adjust (·.borrow) u)).2[i].borrows - 1 = _
    rw [inside, getElem_adjust, if_pos rfl]
    rfl
  constructor <;> simp only [Place.perform_borrowing, same]
  · refine ⟨?_, unmoved'.congr rfl ⟨_, release _⟩⟩
    rw [isBorrowed, back]
    exact borrowed
  · exact back

variable [Text.Describe α]

/-- Whatever is tried while a value is held, the observable stays where it is. -/
theorem heeds_held (i : Fin n) (w : World n α) :
    (language n α).Heeds (held i w) fun _ => True := by
  have lines (e : Event (Step α) (Reply α) (Fin n × Occurrence α))
      (he : ∀ what, e ≠ .happened what) : (held i w).Admits (World.record e) := by
    refine admits_held (fun _ => rfl) fun v => ?_
    cases e with
    | happened what => exact absurd rfl (he what)
    | began | did | inner => simp [history_record, occurrence?]
  -- At the place that is held, setting and subscribing fail, and unsubscribing stops half-way;
  -- whatever is done elsewhere does not concern it.
  refine heeds (fun _ _ => rfl) clerical_held lines (fun _ _ _ _ _ => trivial)
    (fun j nested nested' hn => ?_) fun j id => ?_
  · by_cases same : j = i
    · subst same
      refine ⟨fun v u hu => ?_, fun m m' hm => borrowing_held hm, fun callback _ u hu => ?_⟩
      · constructor <;> simp only [Place.perform_set_borrowed (p := place j) (w := u) hu.1]
        · exact hu
        · exact (held j w).refl u
      · constructor <;> simp only [Place.perform_subscribe_borrowed (p := place j) (w := u) hu.1]
        · exact hu
        · exact (held j w).refl u
    · have aside := unwatched_held (w := w) same
      have adjust := admits_adjust_held (w := w) same
      exact aside.steady (served_of_unwatched hn aside fun _ _ => adjust _) (fun _ _ => adjust _)
        fun _ _ => Place.borrowing_carries (adjust _) (adjust _)
  · by_cases same : j = i
    · subst same
      intro u hu
      cases on : u[j].isActive id with
      | false =>
        constructor <;> simp only [Place.perform_unsubscribe_inactive (p := place j) on]
        · exact hu
        · exact (held j w).refl u
      | true =>
        have cell : ((place j).hushed id u)[j] = u[j].silence id :=
          (recorded j).cell_hushed id u
        constructor <;> simp only [(recorded j).perform_unsubscribe_borrowed on hu.1]
        · exact ⟨by rw [cell]; exact hu.1, hu.2.hushed id⟩
        · show ((place j).hushed id u)[j].borrows = u[j].borrows
          rw [cell]
          rfl
    · exact (unwatched_held same).unsubscribe id

end LiveState.Observable.Scenario
