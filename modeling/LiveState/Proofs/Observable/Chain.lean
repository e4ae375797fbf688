import LiveState.Proofs.Observable.Delivery

/-! # The chain of changes

The changes of an observable form one chain: each is made by one step that changes the value, and
applies the function of that step to the value that was current when the step began.

A journal shows this.  It falls into the lines of complete steps (`Deed`), and those of a step that
changes the value and was done hold one change of its own.  Before that change stands what the
steps inside have done, and after it the pass, in which subscribers may set off further steps.  All
other changes are the own ones of steps that lie inside (`Chain`).
-/

namespace LiveState.Observable

open Course History

/-- The function by which an action changes the value.  The other actions do not change it
    themselves. -/
def Action.effect? {σ α : Type} : Action σ α → Option (α → α)
  | .set v => some fun _ => v
  | .update f _ _ | .replaceWith f _ _ => some f
  | .get | .version | .describe _ | .borrow _ | .subscribe _ _ => none

namespace Scenario

variable {n : Nat} {α : Type}

abbrev Line (n : Nat) (α : Type) := Event (Step α) (Reply α) (Fin n × Occurrence α)

/-- The step that has come to its end with this line, and its answer. -/
def Line.closes? : Line n α → Option (Step α × Reply α)
  | .did _ s r | .inner s r => some (s, r)
  | .began _ | .happened _ => none

/-- The line of the change to `v` that follows on `past`. -/
def Line.change (i : Fin n) (past : List (Line n α)) (v : α) : Line n α :=
  .happened (i, .committed ((historyOf i past).stored.length + 1) v)

/-- The value of observable `i` after these lines. -/
def valueAfter (values : Vector α n) (i : Fin n) (past : List (Line n α)) : α :=
  (historyOf i past).current (values.get i)

/-- The function that a step has applied, if it is one that changes the value and was done.  Where
    it was interrupted there is no answer. -/
def Step.applied? : Step α → Option (Reply α) → Option (α → α)
  | .act _ action, some (.observable .done) => action.effect?
  | _, _ => none

mutual

/-- `Chain values past lines`: what follows on `past` are steps, complete or interrupted, that each
    make their own change if they make any, and other occurrences. -/
inductive Chain (values : Vector α n) : List (Line n α) → List (Line n α) → Prop
  | nil {past : List (Line n α)} : Chain values past []
  | happened {past rest : List (Line n α)} {i : Fin n} {o : Occurrence α} : stored? o = none →
      Chain values (past ++ [.happened (i, o)]) rest →
      Chain values past (.happened (i, o) :: rest)
  | closed {past lines rest : List (Line n α)} {s : Step α} {r : Reply α} {line : Line n α} :
      Deed values past s (some r) lines → line.closes? = some (s, r) →
      Chain values (past ++ (lines ++ [line])) rest → Chain values past (lines ++ line :: rest)
  | interrupted {past lines rest : List (Line n α)} {s : Step α} :
      Deed values past s none lines → Chain values (past ++ lines) rest →
      Chain values past (lines ++ rest)

/-- `Deed values past s r lines`: the step `s` begins after `past`, `lines` is all that happens
    until it ends, and `r` is its answer unless it is interrupted. -/
inductive Deed (values : Vector α n) :
    List (Line n α) → Step α → Option (Reply α) → List (Line n α) → Prop
  | idle {past lines : List (Line n α)} {s : Step α} {r : Option (Reply α)} :
      s.applied? r = none → Chain values (past ++ [.began s]) lines →
      Deed values past s r (.began s :: lines)
  /-- The function is applied to the value from before the step, and the change is the next one
      when it is made. -/
  | changed {past before after : List (Line n α)} {s : Step α} {r : Option (Reply α)}
      {f : α → α} {i : Fin n} :
      s.applied? r = some f → Chain values (past ++ [.began s]) before →
      Chain values (past ++ [.began s] ++ before ++
        [.change i (past ++ [.began s] ++ before) (f (valueAfter values i past))]) after →
      Deed values past s r (.began s :: (before ++
        .change i (past ++ [.began s] ++ before) (f (valueAfter values i past)) :: after))

end

variable {values : Vector α n}

theorem Chain.append {past lines rest : List (Line n α)} :
    Chain values past lines → Chain values (past ++ lines) rest →
      Chain values past (lines ++ rest)
  | .nil, h => by simpa using h
  | .happened quiet tail, h => .happened quiet (tail.append (by simpa using h))
  | .closed deed closes tail, h => by
    rw [List.append_assoc]
    exact .closed deed closes (tail.append (by simpa using h))
  | .interrupted deed tail, h => by
    rw [List.append_assoc]
    exact .interrupted deed (tail.append (by simpa using h))

/-! ## The course of the chain -/

/-- Every observable holds the value of its latest change, and its version is the number of its
    changes. -/
structure World.Current (values : Vector α n) (w : World n α) : Prop where
  value : ∀ i : Fin n, w[i].value = (w.history i).current (values.get i)
  version : ∀ i : Fin n, w[i].version = (w.history i).stored.length

/-- The course on which the observables are current, and the journal goes on as a chain unless it
    is cut short. -/
def chaining (values : Vector α n) : Course (World n α) where
  sound := World.Current values
  leads b w w' := b = false →
    ∃ lines, w'.journal.toList = w.journal.toList ++ lines ∧ Chain values w.journal.toList lines
  refl w _ := ⟨[], by simp, .nil⟩
  trans := by
    intro u v w b b' first second hb
    obtain ⟨hb, hb'⟩ := Bool.or_eq_false_iff.1 hb
    obtain ⟨s, hs, cs⟩ := first hb
    obtain ⟨t, ht, ct⟩ := second hb'
    exact ⟨s ++ t, by rw [ht, hs, List.append_assoc], cs.append (hs ▸ ct)⟩

theorem World.journal_record (w : World n α) (line : Line n α) :
    (w.record line).journal.toList = w.journal.toList ++ [line] := by
  simp [World.record]

/-- A line that is not a change of an observable. -/
def Line.IsQuiet (line : Line n α) : Prop :=
  ∀ i : Fin n, ∀ o ∈ occurrence? i line, stored? o = none

theorem Line.IsQuiet.of_ne_happened {line : Line n α} (h : ∀ what, line ≠ .happened what) :
    line.IsQuiet := by
  intro i o ho
  cases line with
  | happened what => exact absurd rfl (h what)
  | began | did | inner => cases ho

theorem Line.IsQuiet.happened {i : Fin n} {o : Occurrence α} (quiet : stored? o = none) :
    Line.IsQuiet (.happened (i, o)) := by
  intro j x hx
  simp only [occurrence?] at hx
  split at hx
  · cases hx
    exact quiet
  · cases hx

theorem Line.IsQuiet.stored_record {line : Line n α} (quiet : line.IsQuiet) (i : Fin n)
    (w : World n α) : ((w.record line).history i).stored = (w.history i).stored := by
  rw [history_record, stored_append]
  cases ho : occurrence? i line with
  | none => simp [stored]
  | some o => simp [stored, quiet i o ho]

namespace World.Current

variable {w u : World n α}

theorem congr (h : w.Current values)
    (cells : ∀ i : Fin n, u[i].value = w[i].value ∧
      u[i].version = w[i].version)
    (stored : ∀ i, (u.history i).stored = (w.history i).stored) : u.Current values where
  value i := by
    rw [(cells i).1, h.value i]
    exact congrArg (List.getLastD · _) (stored i).symm
  version i := by rw [(cells i).2, h.version i, stored i]

theorem record (h : w.Current values) {line : Line n α} (quiet : line.IsQuiet) :
    (w.record line).Current values :=
  h.congr (fun _ => ⟨rfl, rfl⟩) fun i => quiet.stored_record i w

theorem committed (h : w.Current values) (i : Fin n) (v : α) :
    ((place i).committed v w).Current values := by
  have cell (j : Fin n) : ((place i).committed v w)[j] =
      if i = j then w[i].store v else w[j] := getElem_adjust i j (·.store v) w
  have past (j : Fin n) : (((place i).committed v w).history j).stored =
      (w.history j).stored ++ if i = j then [v] else [] := by
    rw [Place.committed, place, history_record, stored_append]
    by_cases same : i = j <;> simp [occurrence?, same, stored, stored?, World.history]
  constructor <;> intro j
  · rw [cell, History.current, past]
    by_cases same : i = j
    · simp [same]
    · simpa [same, History.current] using h.value j
  · rw [cell, past]
    by_cases same : i = j
    · subst same
      simpa using h.version i
    · simpa [same] using h.version j

end World.Current

/-! ## What stays on the course -/

theorem chaining_record {w : World n α} (h : w.Current values) {i : Fin n} {o : Occurrence α}
    (quiet : stored? o = none) :
    (w.record (.happened (i, o))).Current values ∧
      (chaining values).leads false w (w.record (.happened (i, o))) :=
  ⟨h.record (.happened quiet), fun _ => ⟨_, World.journal_record w _, .happened quiet .nil⟩⟩

theorem admits_unchained {f : World n α → World n α}
    (cells : ∀ w (i : Fin n), (f w)[i].value = w[i].value ∧
      (f w)[i].version = w[i].version)
    (journal : ∀ w, (f w).journal = w.journal) : (chaining values).Admits f := by
  intro w h
  refine ⟨h.congr (cells w) fun i => ?_, fun _ => ⟨[], by simp [journal], .nil⟩⟩
  rw [World.history, journal, ← World.history]

theorem admits_adjust_unchained (i : Fin n)
    {f : Observable α (Listener (Step α) α) → Observable α (Listener (Step α) α)}
    (h : ∀ o, (f o).value = o.value ∧ (f o).version = o.version) :
    (chaining values).Admits ((place i).adjust f) := by
  refine admits_unchained (fun w j => ?_) fun _ => rfl
  rw [getElem_adjust]
  split
  · next same => rw [(h _).1, (h _).2, same]; exact ⟨rfl, rfl⟩
  · exact ⟨rfl, rfl⟩

theorem clerical_chaining : Clerical (chaining values) where
  handles _ := admits_unchained (fun _ _ => ⟨rfl, rfl⟩) fun _ => rfl
  subscriptions _ := admits_unchained (fun _ _ => ⟨rfl, rfl⟩) fun _ => rfl

theorem quiescent_chaining (i : Fin n) : (place i).Quiescent (chaining values) :=
  fun _ quiet _ h => chaining_record h quiet

theorem unsubscribe_chaining (i : Fin n) (id : Nat) :
    (chaining values).Carries ((place i).unsubscribe id) ((place i).unsubscribe id) :=
  Place.unsubscribe_carries (quiescent_chaining i)
    (admits_adjust_unchained i fun _ => ⟨rfl, rfl⟩) (admits_adjust_unchained i fun _ => ⟨rfl, rfl⟩)

section

variable {nested nested' : Nested (World n α) (Step α)}

theorem served_chaining
    (hn : Nested.Carried (chaining values) (fun _ => True) nested nested') (i : Fin n) :
    (place i).Served (chaining values) (Listener.hear (place i) nested.act fun _ => pure ())
      (Listener.hear (place i) nested'.act fun _ => pure ()) := by
  have adjust (id : Nat) (f : Listener (Step α) α → Listener (Step α) α) :
      (chaining values).Admits ((place i).adjust (·.adjustCallback id f)) :=
    admits_adjust_unchained i fun _ => ⟨rfl, rfl⟩
  refine fun id => Listener.Quiet.servedAt
    ⟨fun _ _ => quiescent_chaining i _ rfl, fun id _ => adjust id _⟩ hn.act (quiescent_chaining i)
    (fun _ _ l _ => l.within_true) fun _ _ skip _ v => ?_
  cases skip with
  | true => exact (adjust id _).carries
  | false => exact carries_pure ()

theorem perform_chaining_of_effect_none [Text.Describe α]
    (hn : Nested.Carried (chaining values) (fun _ => True) nested nested') {i : Fin n}
    {action : Action (Step α) α} (still : action.effect? = none) :
    (chaining values).Carries
      (action.perform (place i) nested (fun _ => pure ()) (World.enrol i))
      (action.perform (place i) nested' (fun _ => pure ()) (World.enrol i)) := by
  cases action with
  | set | update | replaceWith => cases still
  | get | version => exact (Place.look_carries _).map _
  | describe pretty => exact fun w hw => Place.carriesFrom_look (.pure hw _)
  | borrow inner =>
    exact (Place.borrowing_carries (admits_adjust_unchained i fun _ => ⟨rfl, rfl⟩)
      (admits_adjust_unchained i fun _ => ⟨rfl, rfl⟩) (.forM fun s _ => hn.inside s trivial)).map _
  | subscribe name rules =>
    refine (Place.subscribe_carries (quiescent_chaining i)
      (admits_adjust_unchained i fun _ => ⟨rfl, rfl⟩)
      fun w _ => served_chaining hn i w[i].nextId).bind fun id => ?_
    have enrolled : (chaining values).Admits (World.enrol i name id) :=
      clerical_chaining.subscriptions fun w => w.subscriptions.insert name (i, id)
    exact enrolled.carries.bind fun _ => carries_pure _

end

/-! ## Changes -/

/-- After `past`, the lines hold one change of observable `i` to `v`, with a chain before it and a
    chain after it. -/
def Makes (values : Vector α n) (i : Fin n) (past : List (Line n α)) (v : α)
    (lines : List (Line n α)) : Prop :=
  ∃ before after, lines = before ++ .change i (past ++ before) v :: after ∧
    Chain values past before ∧ Chain values (past ++ before ++ [.change i (past ++ before) v]) after

theorem Makes.after {i : Fin n} {v : α} {past first lines : List (Line n α)}
    (h : Makes values i (past ++ first) v lines) (chain : Chain values past first) :
    Makes values i past v (first ++ lines) := by
  obtain ⟨before, after, rfl, hb, ha⟩ := h
  exact ⟨first ++ before, after, by simp, chain.append hb, by simpa using ha⟩

/-- From `w` both actions do the same and keep the observables current; and unless they are cut
    short, they return after a change of observable `i` to `v`, or panic without one. -/
structure Changes (values : Vector α n) (i : Fin n) (v : α) (w : World n α)
    (m m' : Act (World n α) Unit) : Prop where
  same : m'.perform w = m.perform w
  sound : (m.perform w).2.Current values
  ends : Act.isExhausted (m.perform w).1 = false →
    ∃ lines, (m.perform w).2.journal.toList = w.journal.toList ++ lines ∧
      ((m.perform w).1 = .ok () ∧ Makes values i w.journal.toList v lines ∨
        (m.perform w).1 = .error .panic ∧ Chain values w.journal.toList lines)

namespace Changes

variable {i : Fin n} {v : α} {w : World n α}

theorem panic (hw : w.Current values) : Changes values i v w Act.panic Act.panic :=
  ⟨rfl, hw, fun _ => ⟨[], by simp, .inr ⟨rfl, .nil⟩⟩⟩

theorem after {u : World n α} {m m' k k' : Act (World n α) Unit} (h : Changes values i v u k k')
    (hm : m.perform w = k.perform u) (hm' : m'.perform w = k'.perform u)
    (later : (chaining values).leads false w u) : Changes values i v w m m' := by
  obtain ⟨same, sound, ends⟩ := h
  constructor
  · rw [hm, hm', same]
  · rwa [hm]
  · rw [hm]
    intro whole
    obtain ⟨first, grown, chain⟩ := later rfl
    obtain ⟨lines, grown', ending⟩ := ends whole
    rw [grown] at grown' ending
    exact ⟨first ++ lines, by rw [grown', List.append_assoc],
      ending.imp (fun ⟨done, makes⟩ => ⟨done, makes.after chain⟩)
        fun ⟨failed, more⟩ => ⟨failed, chain.append more⟩⟩

end Changes

section

variable {i : Fin n} {call call' : Nat → Listener (Step α) α → α → Act (World n α) Unit}
  {w : World n α}

/-- Once a value is stored, what remains is the pass. -/
theorem set_changes (served : (place i).Served (chaining values) call call')
    (hw : w.Current values) (v : α) :
    Changes values i v w ((place i).set call v) ((place i).set call' v) := by
  -- Setting a borrowed value panics before anything is stored. Else the change comes first, and
  -- what the pass adds is a chain, as no turn panics.
  cases free : ((place i).cell w).isBorrowed with
  | true =>
    exact (Changes.panic hw).after (Place.perform_set_borrowed free v)
      (Place.perform_set_borrowed free v) ((chaining values).refl w)
  | false =>
    have line : ((place i).committed v w).journal.toList =
        w.journal.toList ++ [Line.change i w.journal.toList v] := by
      rw [Line.change, ← World.history, ← hw.version i]
      exact World.journal_record _ _
    have calm : (((place i).announce call (((place i).cell w).version + 1) v
        ((place i).cell w).listed).perform ((place i).committed v w)).1 ≠ .error .panic :=
      Place.announce_ne_panic _ _ _ _
    obtain ⟨same, sound, leads⟩ := Place.announce_carries (quiescent_chaining i)
      (((place i).cell w).version + 1) v
      (fun id (_ : id ∈ ((place i).cell w).listed) => served id) _ (hw.committed i v)
    have ran (call : Nat → Listener (Step α) α → α → Act (World n α) Unit) :
        ((place i).set call v).perform w = ((place i).announce call (((place i).cell w).version + 1)
          v ((place i).cell w).listed).perform ((place i).committed v w) :=
      (recorded i).perform_set_free free v
    refine ⟨by rw [ran, ran, same], by rw [ran]; exact sound, ?_⟩
    rw [ran]
    intro whole
    obtain ⟨after, grown, chain⟩ := leads whole
    rw [line] at grown chain
    refine ⟨_, by rw [grown, List.append_assoc], .inl ⟨Act.ok_of_whole calm whole, ?_⟩⟩
    exact ⟨[], after, by simp, .nil, by simpa using chain⟩

/-- The function is applied to the value from before the steps inside, whatever they do. -/
theorem update_changes (served : (place i).Served (chaining values) call call')
    {inside inside' : Act (World n α) Unit} (hi : (chaining values).Carries inside inside')
    (hw : w.Current values) (f : α → α) (faulty : Bool) :
    Changes values i (f w[i].value) w ((place i).update call f faulty inside)
      ((place i).update call' f faulty inside') := by
  -- What is left when the steps inside have come to their end.
  have began (call : Nat → Listener (Step α) α → α → Act (World n α) Unit)
      (inside : Act (World n α) Unit) : ((place i).update call f faulty inside).perform w =
      (do inside; if faulty then Act.panic else (place i).set call (f w[i].value)).perform
        w := by
    simp only [Place.update, Act.perform_bind, Place.perform_look]
    rfl
  obtain ⟨same, sound, leads⟩ := hi w hw
  rcases ran : inside.perform w with ⟨(_ | _) | _, u⟩ <;> rw [ran] at same sound leads
  · refine (Changes.panic sound).after ?_ ?_ leads <;> rw [began, Act.perform_bind]
    · rw [ran]; rfl
    · rw [same]; rfl
  · constructor <;> simp only [began, Act.perform_bind, ran, same]
    · exact sound
    · intro whole
      cases whole
  · have next : Changes values i (f w[i].value) u
        (if faulty then Act.panic else (place i).set call (f w[i].value))
        (if faulty then Act.panic else (place i).set call' (f w[i].value)) := by
      cases faulty with
      | true => exact .panic sound
      | false => exact set_changes served sound _
    exact next.after (by rw [began, Act.perform_bind, ran]) (by rw [began, Act.perform_bind, same])
      leads

variable {nested nested' : Nested (World n α) (Step α)}

/-- Actions that change the value. -/
theorem perform_changes [Text.Describe α]
    (hn : Nested.Carried (chaining values) (fun _ => True) nested nested')
    {action : Action (Step α) α} {f : α → α} (effect : action.effect? = some f) :
    ∃ m m' : Act (World n α) Unit,
      action.perform (place i) nested (fun _ => pure ()) (World.enrol i) =
        (fun _ => Answer.done) <$> m ∧
      action.perform (place i) nested' (fun _ => pure ()) (World.enrol i) =
        (fun _ => Answer.done) <$> m' ∧
      ∀ w, w.Current values → Changes values i (f w[i].value) w m m' := by
  have inside (inner : List (Step α)) :
      (chaining values).Carries (inner.forM nested.inside) (inner.forM nested'.inside) :=
    .forM fun s _ => hn.inside s trivial
  cases action with
  | get | version | describe | borrow | subscribe => cases effect
  | set v =>
    cases effect
    exact ⟨_, _, (map_eq_pure_bind _ _).symm, (map_eq_pure_bind _ _).symm,
      fun w hw => set_changes (served_chaining hn i) hw v⟩
  | update _ faulty inner | replaceWith _ faulty inner =>
    cases effect
    exact ⟨_, _, (map_eq_pure_bind _ _).symm, (map_eq_pure_bind _ _).symm,
      fun w hw => update_changes (served_chaining hn i) (inside inner) hw f faulty⟩

end

/-! ## Steps -/

namespace Step

theorem applied?_none (s : Step α) : s.applied? none = none := by
  cases s <;> rfl

theorem applied?_of_ne_act {s : Step α} (h : ∀ handle action, s ≠ .act handle action)
    (r : Option (Reply α)) : s.applied? r = none := by
  cases s with
  | act handle action => exact absurd rfl (h handle action)
  | subscription | clone | drop | panic => rfl

theorem applied?_act_of_effect_none {handle : Nat} {action : Action (Step α) α}
    (still : action.effect? = none) (r : Option (Reply α)) :
    (act handle action).applied? r = none := by
  rcases r with _ | (_ | (_ | _ | _ | _) | _ | _ | _) <;> first | rfl | exact still

end Step

/-- From `w` both actions do the same and keep the observables current, and what they do is the
    step `s`, to its end or interrupted, unless they are cut short. -/
structure Done (values : Vector α n) (s : Step α) (w : World n α)
    (m m' : Act (World n α) (Reply α)) : Prop where
  same : m'.perform w = m.perform w
  sound : (m.perform w).2.Current values
  ends : Act.isExhausted (m.perform w).1 = false →
    ∃ lines, (m.perform w).2.journal.toList = w.journal.toList ++ lines ∧
      Deed values w.journal.toList s (m.perform w).1.toOption lines

namespace Done

variable {s : Step α} {w : World n α} {m m' : Act (World n α) (Reply α)}

/-- What a step does after its first line makes no change that is its own. -/
theorem idle {k k' : Act (World n α) (Reply α)}
    (hm : m.perform w = k.perform (w.record (.began s)))
    (hm' : m'.perform w = k'.perform (w.record (.began s)))
    (carried : (chaining values).CarriesFrom (w.record (.began s)) k k')
    (still : s.applied? (m.perform w).1.toOption = none) : Done values s w m m' := by
  refine ⟨by rw [hm, hm', carried.same], by rw [hm]; exact carried.sound, fun whole => ?_⟩
  rw [hm] at whole still ⊢
  obtain ⟨lines, grown, chain⟩ := carried.leads whole
  rw [World.journal_record] at grown chain
  exact ⟨.began s :: lines, by simpa using grown, .idle still chain⟩

theorem changed {f : α → α} {i : Fin n} {k k' : Act (World n α) Unit} (hw : w.Current values)
    (hm : m.perform w = ((fun _ => Reply.observable .done) <$> k).perform (w.record (.began s)))
    (hm' : m'.perform w = ((fun _ => Reply.observable .done) <$> k').perform (w.record (.began s)))
    (changes : Changes values i (f w[i].value) (w.record (.began s)) k k')
    (applied : s.applied? (some (.observable .done)) = some f) : Done values s w m m' := by
  obtain ⟨same, sound, ends⟩ := changes
  rw [Act.perform_map] at hm hm'
  refine ⟨by rw [hm, hm', same], by rw [hm]; exact sound, fun whole => ?_⟩
  rw [hm] at whole ⊢
  rw [Act.isExhausted_map] at whole
  obtain ⟨lines, grown, ending⟩ := ends whole
  rw [World.journal_record] at grown ending
  refine ⟨.began s :: lines, by simpa using grown, ?_⟩
  rcases ending with ⟨done, before, after, rfl, hb, ha⟩ | ⟨failed, chain⟩
  · rw [done]
    rw [hw.value i] at ha ⊢
    exact .changed applied hb ha
  · rw [failed]
    exact .idle s.applied?_none chain

theorem closed_carries (h : ∀ w, w.Current values → Done values s w m m')
    (close : Reply α → Line n α) (closes : ∀ r, (close r).closes? = some (s, r)) :
    (chaining values).Carries (do let r ← m; modify (World.record (close r)))
      (do let r ← m'; modify (World.record (close r))) := by
  intro w hw
  obtain ⟨same, sound, ends⟩ := h w hw
  have quiet (r : Reply α) : (close r).IsQuiet :=
    .of_ne_happened fun what same => by
      have none := closes r
      rw [same] at none
      cases none
  rcases ran : m.perform w with ⟨i | r, u⟩ <;> rw [ran] at same sound ends
  · constructor <;> simp only [Act.perform_bind, ran, same]
    · exact sound
    · intro whole
      obtain ⟨lines, grown, deed⟩ := ends (by cases i <;> first | rfl | cases whole)
      exact ⟨lines, grown, by simpa using Chain.interrupted deed .nil⟩
  · constructor <;> simp only [Act.perform_bind, ran, same]
    · exact sound.record (quiet r)
    · intro _
      obtain ⟨lines, grown, deed⟩ := ends rfl
      refine ⟨lines ++ [close r], ?_, .closed deed (closes r) .nil⟩
      exact (World.journal_record u _).trans (by rw [grown, List.append_assoc])

end Done

theorem perform_withHandle_missing {handle : Nat} {w : World n α}
    (misses : w.target? handle = none) (f : Fin n → Act (World n α) (Reply α)) :
    (withHandle handle f).perform w = (.ok .noHandle, w) := by
  simp only [withHandle, Act.perform_bind, Act.perform_view, misses, Act.perform_pure]

theorem perform_withHandle_reaching {handle : Nat} {i : Fin n} {w : World n α}
    (reaches : w.target? handle = some i) (f : Fin n → Act (World n α) (Reply α)) :
    (withHandle handle f).perform w = (f i).perform w := by
  simp only [withHandle, Act.perform_bind, Act.perform_view, reaches]

variable [Text.Describe α] {P : World n α → Prop}

/-- The lines of complete steps stand in a chain, whoever has set them off. -/
theorem nested_chaining {exec exec' : Step α → Act (World n α) (Reply α)}
    (h : ∀ s w, w.Current values → Done values s w (exec s) (exec' s)) :
    Nested.Carried (chaining values) (fun _ => True) ((language n α).nested exec)
      (((language n α).guarded P).nested exec') where
  act name s _ := Done.closed_carries (h s) (.did name s) fun _ => rfl
  inside s _ := Done.closed_carries (h s) (.inner s) fun _ => rfl

/-- A step with a budget is a deed.  The steps that it sets off have smaller budgets. -/
theorem exec_done (hP : ∀ w, w.Current values → P w) (budget : Nat) (s : Step α)
    {w : World n α} (hw : w.Current values) :
    Done values s w ((language n α).exec budget s) (((language n α).guarded P).exec budget s) := by
  induction budget generalizing s w with
  | zero => exact ⟨rfl, hw, nofun⟩
  | succ budget ih =>
    have hn := nested_chaining (P := P) fun s _ => ih s
    have began : (w.record (.began s)).Current values := hw.record (.of_ne_happened nofun)
    have ran : ((language n α).exec (budget + 1) s).perform w =
        ((language n α).perform ((language n α).nested ((language n α).exec budget)) s).perform
          (w.record (.began s)) := by
      simp only [Language.exec, Act.perform_bind]
      rfl
    -- The guard lets the step begin, since the world is current.
    have ran' : (((language n α).guarded P).exec (budget + 1) s).perform w =
        ((language n α).perform (((language n α).guarded P).nested
          (((language n α).guarded P).exec budget)) s).perform (w.record (.began s)) := by
      rw [← Language.perform_guarded (hP _ began)]
      simp only [Language.exec, Act.perform_bind]
      rfl
    cases s with
    | act handle action =>
      cases reached : w.target? handle with
      | none =>
        have missing (nested : Nested (World n α) (Step α)) :
            ((language n α).perform nested (.act handle action)).perform
              (w.record (.began (.act handle action))) =
            (pure .noHandle : Act (World n α) (Reply α)).perform
              (w.record (.began (.act handle action))) :=
          perform_withHandle_missing (w := w.record (.began (.act handle action))) reached _
        rw [missing] at ran ran'
        exact .idle ran ran' (.pure began _) (by rw [ran]; rfl)
      | some i =>
        have reaching (nested : Nested (World n α) (Step α)) :
            ((language n α).perform nested (.act handle action)).perform
              (w.record (.began (.act handle action))) =
            (Reply.observable <$> action.perform (place i) nested (fun _ => pure ())
              (World.enrol i)).perform (w.record (.began (.act handle action))) :=
          perform_withHandle_reaching (w := w.record (.began (.act handle action))) reached _
        rw [reaching] at ran ran'
        cases effect : action.effect? with
        | none =>
          exact .idle ran ran' ((perform_chaining_of_effect_none hn effect _ began).map _)
            (Step.applied?_act_of_effect_none effect _)
        | some f =>
          obtain ⟨k, k', hk, hk', changes⟩ := perform_changes hn effect
          rw [hk, Functor.map_map] at ran
          rw [hk', Functor.map_map] at ran'
          exact .changed hw ran ran' (changes _ began) effect
    | subscription | clone | drop | panic =>
      exact .idle ran ran' (perform_carries_of_ne_act clerical_chaining unsubscribe_chaining _ _
        (fun _ _ => by simp) _ began) (Step.applied?_of_ne_act (fun _ _ => by simp) _)

end Scenario

end LiveState.Observable
