import LiveState.Observable.Scenario
import LiveState.Proofs.Observable.Chronicle

/-! # Histories in scenarios

The journal of a scenario holds the histories of its observables.  A run keeps every observable in
agreement with its history, and the histories well formed.
-/

namespace LiveState.Observable.Scenario

open Course

variable {n : Nat} {α : Type}

/-- The observables of a world are numbered, and there is one for each number. -/
instance : GetElem (World n α) (Fin n) (Observable α (Listener (Step α) α)) fun _ _ => True where
  getElem w i _ := (place i).cell w

theorem getElem_cells (w : World n α) (i : Fin n) : getElem w.cells i.val i.isLt = w[i] := rfl

theorem getElem_start (values : Vector α n) (i : Fin n) :
    (World.start values)[i] = Observable.new (values.get i) := by
  rw [← getElem_cells, World.start, Vector.getElem_map]
  rfl

/-- What an event says about observable `i`. -/
def occurrence? (i : Fin n) :
    Event (Step α) (Reply α) (Fin n × Occurrence α) → Option (Occurrence α)
  | .happened (j, o) => if j = i then some o else none
  | .began _ | .did _ _ _ | .inner _ _ => none

/-- What a list of events says about observable `i`. -/
def historyOf (i : Fin n) (events : List (Event (Step α) (Reply α) (Fin n × Occurrence α))) :
    History α := events.filterMap (occurrence? i)

/-- The history of observable `i`. -/
def World.history (i : Fin n) (w : World n α) : History α := historyOf i w.journal.toList

theorem history_record (i : Fin n) (e : Event (Step α) (Reply α) (Fin n × Occurrence α))
    (w : World n α) : (w.record e).history i = w.history i ++ (occurrence? i e).toList := by
  cases he : occurrence? i e <;> simp [World.history, historyOf, World.record, he]

theorem getElem_adjust (i j : Fin n)
    (f : Observable α (Listener (Step α) α) → Observable α (Listener (Step α) α))
    (w : World n α) :
    ((place i).adjust f w)[j] = if i = j then f w[i] else w[j] := by
  -- Only the cell of the place itself is replaced.
  show (place j).cell ((place i).adjust f w) = if i = j then f ((place i).cell w) else
    (place j).cell w
  by_cases same : i = j
  · subst same
    simp [place]
  · simp [place, same, Fin.val_ne_of_ne same]

theorem recorded (i : Fin n) : (place (α := α) i).Recorded (World.history i) where
  cell_adjust f w := by simp [place]
  cell_note o w := rfl
  past_adjust f w := rfl
  past_note o w := by simp [place, history_record, occurrence?]

/-- A change that leaves the observable and its history as they are stays on its course. -/
theorem admits_aside {i : Fin n} {initial : α} {f : World n α → World n α}
    (cells : ∀ w, (f w)[i] = w[i]) (history : ∀ w, (f w).history i = w.history i) :
    (chronicle (place i) (World.history i) initial).Admits f := by
  intro w a
  refine Place.chronicle_leads a.underway ?_ (by rw [history, List.append_nil]) .nil
  show History.Agrees initial (f w)[i] ((f w).history i)
  rw [cells, history]
  exact a.toAgrees

theorem admits_adjust_of_ne {i j : Fin n} (h : j ≠ i) (initial : α)
    (f : Observable α (Listener (Step α) α) → Observable α (Listener (Step α) α)) :
    (chronicle (place i) (World.history i) initial).Admits ((place j).adjust f) :=
  admits_aside (fun w => by rw [getElem_adjust, if_neg h]) fun _ => rfl

theorem unwatched {i j : Fin n} (h : j ≠ i) (initial : α) :
    (place j).Unwatched (chronicle (place i) (World.history i) initial) :=
  have adjust (f : Observable α _ → Observable α _) := admits_adjust_of_ne h initial f
  { store := fun _ => adjust _
    silence := fun _ => adjust _
    delist := fun _ => adjust _
    note := fun o => admits_aside (fun _ => rfl) fun w => by
      simp [place, history_record, occurrence?, h] }

/-! ## Scenarios on a course -/

/-- Changes of handles and names stay on the course. -/
structure Clerical (c : Course (World n α)) : Prop where
  handles : ∀ f : World n α → Array (Option (Fin n)), c.Admits fun w => { w with handles := f w }
  subscriptions : ∀ f : World n α → OrderedMap String (Fin n × Nat),
    c.Admits fun w => { w with subscriptions := f w }

variable {c : Course (World n α)} {allowed : Step α → Prop}

/-- Whoever does something with the observable behind a handle stays on a course, if that does. -/
theorem withHandle_carriesFrom {f f' : Fin n → Act (World n α) (Reply α)} {w : World n α}
    (hw : c.sound w) (h : ∀ i, c.CarriesFrom w (f i) (f' i)) (handle : Nat) :
    c.CarriesFrom w (withHandle handle f) (withHandle handle f') := by
  refine CarriesFrom.look ?_
  cases w.target? handle with
  | none => exact .pure hw _
  | some i => exact h i

variable [Text.Describe α]

theorem perform_carries_of_ne_act (hc : Clerical c)
    (unsubscribe : ∀ i id, c.Carries ((place i).unsubscribe id) ((place i).unsubscribe id))
    (nested nested' : Nested (World n α) (Step α)) {s : Step α}
    (hs : ∀ handle action, s ≠ .act handle action) :
    c.Carries ((language n α).perform nested s) ((language n α).perform nested' s) := by
  intro w hw
  cases s with
  | subscription name request =>
    refine CarriesFrom.look ?_
    rcases w.subscriptions.get? name with _ | ⟨i, id⟩
    · exact .pure hw _
    · exact (Subscription.Request.perform_carries (unsubscribe i id) (hc.subscriptions _)
        request w hw).map _
  | act handle action => exact absurd rfl (hs handle action)
  | clone handle =>
    refine withHandle_carriesFrom hw (fun i => CarriesFrom.look ?_) handle
    exact ((hc.handles _).carries w hw).bind fun _ v _ hv => .pure hv _
  | drop handle =>
    refine withHandle_carriesFrom hw (fun i => ?_) handle
    exact ((hc.handles _).carries w hw).bind fun _ v _ hv => .pure hv _
  | panic handle => exact withHandle_carriesFrom hw (fun i => .panic hw) handle

/-- Scenarios stay on a course if the operations on their observables do. -/
theorem heeds (cut : ∀ w, c.sound w → c.leads true w w) (hc : Clerical c)
    (lines : ∀ e, (∀ what, e ≠ .happened what) → c.Admits (World.record e))
    (closed : ∀ handle action, allowed (.act handle action) → action.Within allowed)
    (steady : ∀ i nested nested', Nested.Carried c allowed nested nested' →
      (place i).Steady c (Listener.IsScript allowed)
        (Listener.hear (place i) nested.act fun _ => pure ())
        (Listener.hear (place i) nested'.act fun _ => pure ()))
    (unsubscribe : ∀ i id, c.Carries ((place i).unsubscribe id) ((place i).unsubscribe id)) :
    (language n α).Heeds c allowed where
  cut := cut
  began s := lines _ nofun
  did name s r := lines _ nofun
  inner s r := lines _ nofun
  perform nested nested' s hn hs := by
    cases s with
    | act handle action =>
      refine fun w hw => withHandle_carriesFrom hw (fun i => CarriesFrom.map ?_ _) handle
      -- Enrolling a subscription changes nothing but the names.
      refine Action.perform_carries hn (steady i nested nested' hn)
        (fun name _ _ _ id v _ hv => ?_) action (closed handle action hs) w hw
      exact hc.subscriptions (fun w => w.subscriptions.insert name (i, id)) v hv
    | subscription | clone | drop | panic =>
      exact perform_carries_of_ne_act hc unsubscribe nested nested' (fun _ _ => by simp)

omit [Text.Describe α] in
/-- Listeners stay on a course that does not watch their observable. -/
theorem served_of_unwatched {i : Fin n} {nested nested' : Nested (World n α) (Step α)}
    (hn : Nested.Carried c (fun _ => True) nested nested') (h : (place i).Unwatched c)
    (callbacks : ∀ id f, c.Admits ((place i).adjust (·.adjustCallback id f))) :
    (place i).Served c (Listener.hear (place i) nested.act fun _ => pure ())
      (Listener.hear (place i) nested'.act fun _ => pure ()) := by
  refine fun id => Listener.Quiet.servedAt ⟨fun _ _ => h.note _, fun id _ => callbacks id _⟩ hn.act
    h.quiescent (fun _ _ l _ => l.within_true) fun _ _ skip _ v => ?_
  cases skip with
  | true => exact (callbacks id _).carries
  | false => exact fun w hw => .pure hw ()

theorem heeds_of_unwatched (cut : ∀ w, c.sound w → c.leads true w w) (hc : Clerical c)
    (record : ∀ e, c.Admits (World.record e)) (h : ∀ i, (place i).Unwatched c)
    (callbacks : ∀ i id f, c.Admits ((place i).adjust (·.adjustCallback id f)))
    (register : ∀ i l, c.Admits ((place i).adjust (·.register l)))
    (borrowing : ∀ (i : Fin n) (m m' : Act (World n α) Unit),
      c.Carries m m' → c.Carries ((place i).borrowing m) ((place i).borrowing m')) :
    (language n α).Heeds c fun _ => True :=
  heeds cut hc (fun e _ => record e) (fun _ _ _ _ _ => trivial)
    (fun i _ _ hn => (h i).steady (served_of_unwatched hn (h i) (callbacks i))
      (fun l _ => register i l) (borrowing i))
    fun i => (h i).unsubscribe

/-! ## Every observable keeps to its history -/

theorem heeds_chronicle (i : Fin n) (initial : α) :
    (language n α).Heeds (chronicle (place i) (World.history i) initial) fun _ => True := by
  have lines (e : Event (Step α) (Reply α) (Fin n × Occurrence α))
      (he : ∀ what, e ≠ .happened what) :
      (chronicle (place i) (World.history i) initial).Admits (World.record e) := by
    refine admits_aside (fun _ => rfl) fun w => ?_
    cases e with
    | happened what => exact absurd rfl (he what)
    | began | did | inner => simp [history_record, occurrence?]
  have clerical : Clerical (chronicle (place i) (World.history i) initial) :=
    ⟨fun f => admits_aside (fun _ => rfl) fun _ => rfl,
      fun f => admits_aside (fun _ => rfl) fun _ => rfl⟩
  -- The observable itself keeps its history, and the others do not touch it.
  refine heeds (fun w _ h => by cases h) clerical lines (fun _ _ _ _ _ => trivial)
    (fun j nested nested' hn => ?_) fun j id => ?_
  · by_cases same : j = i
    · subst same
      exact Place.Recorded.steady _ (fun name s => hn.act name s trivial) (recorded j) _
    · have aside := unwatched (α := α) same initial
      have adjust := admits_adjust_of_ne (α := α) same initial
      exact aside.steady (served_of_unwatched hn aside fun _ _ => adjust _) (fun _ _ => adjust _)
        fun _ _ => Place.borrowing_carries (adjust _) (adjust _)
  · by_cases same : j = i
    · subst same
      exact (recorded j).unsubscribe_carries id
    · exact (unwatched same initial).unsubscribe id

end LiveState.Observable.Scenario
