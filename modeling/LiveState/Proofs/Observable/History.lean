import LiveState.Observable.Listener

/-! # Histories of an observable

The history of an observable is what happened to it, in order.  It determines the state of the
observable apart from its callbacks and its readers (`History.Agrees`).

A history is well formed (`Episode`) if it falls into complete passes.  The pass of a change gives
a turn to each subscriber that was listed when the change was made, in the order of the list and
once each.  A subscriber that has been silenced by then is passed over; every other one is called
with the value of this very change, and whatever happens until it returns is well formed in its
turn.  So the passes of changes made by a callback lie inside its call.

A call is not only announced: the first line in it is the one that the script itself writes when it
receives the value, and no script is heard anywhere else.
-/

namespace LiveState

variable {α σ : Type}

/-- What happened to an observable, the latest last. -/
abbrev History (α : Type) := List (Occurrence α)

namespace History

/-- The value that a change stored. -/
def stored? : Occurrence α → Option α
  | .committed _ v => some v
  | _ => none

/-- The values stored, in the order of the changes. -/
def stored (h : History α) : List α := h.filterMap stored?

/-- The value after a history that began with `initial`. -/
def current (initial : α) (h : History α) : α := h.stored.getLastD initial

/-- The number that a new subscriber was given. -/
def registered? : Occurrence α → Option Nat
  | .registered id => some id
  | _ => none

/-- The numbers given to subscribers. -/
def registered (h : History α) : List Nat := h.filterMap registered?

/-- How an occurrence changes the list of subscribers. -/
def relist (ids : List Nat) : Occurrence α → List Nat
  | .registered id => ids ++ [id]
  | .delisted id => ids.filter (· != id)
  | _ => ids

/-- The list of subscribers after a history, in the order of their registration. -/
def listed (h : History α) : List Nat := h.foldl relist []

/-- Whether an occurrence leaves the state of the observable as it is, apart from the callbacks. -/
def IsNeutral : Occurrence α → Prop
  | .called _ _ _ | .returned _ _ | .faulted _ _ | .passedOver _ _ | .heard _ _ => True
  | .committed _ _ | .registered _ | .silenced _ | .delisted _ => False

@[simp] theorem stored_snoc (h : History α) (o : Occurrence α) :
    stored (h ++ [o]) = stored h ++ (stored? o).toList := by
  cases ho : stored? o <;> simp [stored, ho]

@[simp] theorem registered_snoc (h : History α) (o : Occurrence α) :
    registered (h ++ [o]) = registered h ++ (registered? o).toList := by
  cases ho : registered? o <;> simp [registered, ho]

@[simp] theorem listed_snoc (h : History α) (o : Occurrence α) :
    listed (h ++ [o]) = relist (listed h) o := by
  simp [listed]

theorem mem_registered {h : History α} {id : Nat} :
    id ∈ h.registered ↔ .registered id ∈ h := by
  simp only [registered, List.mem_filterMap]
  constructor
  · rintro ⟨o, ho, same⟩
    cases o <;> simp_all [registered?]
  · exact fun hid => ⟨_, hid, rfl⟩

theorem listed_sublist (h : History α) : h.listed.Sublist h.registered := by
  -- The list is made from the left, so that the one it begins with has to be any.
  suffices ∀ ids, (h.foldl relist ids).Sublist (ids ++ h.registered) from this []
  induction h with
  | nil => simp [registered]
  | cons o h ih =>
    intro ids
    refine (ih _).trans ?_
    cases o with
    | registered id => simp [relist, registered, registered?]
    | delisted id =>
      exact List.Sublist.append List.filter_sublist (List.Sublist.refl _)
    | _ => exact List.Sublist.refl _

theorem mem_registered_of_mem_listed {h : History α} {id : Nat} (hid : id ∈ h.listed) :
    .registered id ∈ h :=
  mem_registered.1 (h.listed_sublist.mem hid)

/-! ## Voices -/

/-- All callbacks are scripts, and whoever is heard in a call is the script of that subscriber. -/
structure Voiced (o : Observable α (Listener σ α)) (h : History α) : Prop where
  script : ∀ id l, o.callback? id = some l → ∀ skip, l ≠ .keeper skip
  heard : ∀ pass id u name v, [.called pass id u, .heard name v] <:+: h →
    ∃ rules, o.callback? id = some (.script name rules)

namespace Voiced

variable {o o' : Observable α (Listener σ α)} {h : History α}

theorem new (initial : α) : Voiced (σ := σ) (.new initial) [] where
  script id l found := by simp [Observable.new, Observable.callback?] at found
  heard pass id u name v here := by simp at here

theorem note (voiced : Voiced o h) {x : Occurrence α} (silent : ∀ name v, x ≠ .heard name v) :
    Voiced o (h ++ [x]) where
  script := voiced.script
  heard pass id u name v here := by
    refine voiced.heard pass id u name v ((List.infix_concat_iff.1 here).resolve_left fun last => ?_)
    obtain ⟨t, ends⟩ := last
    exact silent name v (by simpa using (congrArg List.getLast? ends).symm)

theorem hears {pass : Option Nat} {id : Nat} {u v : α} {name : String}
    {rules : List (Rule σ α)} (voiced : Voiced o (h ++ [.called pass id u]))
    (found : o.callback? id = some (.script name rules)) :
    Voiced o (h ++ [.called pass id u, .heard name v]) where
  script := voiced.script
  heard pass' id' u' name' v' here := by
    rw [List.append_cons] at here
    rcases List.infix_concat_iff.1 here with ⟨t, ends⟩ | earlier
    · -- The last two lines are those of this very call.
      rw [← List.append_cons] at ends
      cases (List.append_inj' ends rfl).2
      exact ⟨rules, found⟩
    · exact voiced.heard pass' id' u' name' v' earlier

theorem congr (voiced : Voiced o h) (same : ∀ id, o'.callback? id = o.callback? id) :
    Voiced o' h := by
  refine ⟨fun id l found => voiced.script id l (same id ▸ found), fun pass id u name v here => ?_⟩
  rw [same]
  exact voiced.heard pass id u name v here

theorem register (voiced : Voiced o h) {l : Listener σ α} (isScript : ∀ skip, l ≠ .keeper skip) :
    Voiced (o.register l) h where
  script id l' found := by
    by_cases fresh : id = o.nextId
    · subst fresh
      rw [Observable.callback?_register_self, Option.some.injEq] at found
      exact found ▸ isScript
    · exact voiced.script id l' (Observable.callback?_register_of_ne fresh l ▸ found)
  heard pass id u name v here := by
    obtain ⟨rules, found⟩ := voiced.heard pass id u name v here
    have old := Nat.ne_of_lt (Observable.lt_nextId_of_callback? found)
    exact ⟨rules, (Observable.callback?_register_of_ne old l).trans found⟩

theorem spend (voiced : Voiced o h) (id i : Nat) :
    Voiced (o.adjustCallback id (·.spend i)) h where
  script := by
    refine Observable.forall_callback_adjustCallback voiced.script fun l isScript skip => ?_
    cases l with
    | script name rules => exact nofun
    | keeper skip' => exact absurd rfl (isScript skip')
  heard pass j u name v here := by
    obtain ⟨rules, found⟩ := voiced.heard pass j u name v here
    by_cases own : j = id
    · subst own
      rw [Observable.callback?_adjustCallback_self, found]
      exact ⟨_, rfl⟩
    · exact ⟨rules, (Observable.callback?_adjustCallback_of_ne own o _).trans found⟩

end Voiced

/-! ## The state after a history -/

/-- The state of an observable is the one after a history that began with `initial`. -/
structure Agrees (initial : α) (o : Observable α (Listener σ α)) (h : History α) : Prop where
  value : o.value = h.current initial
  version : o.version = h.stored.length
  nextId : List.range o.nextId = h.registered
  listed : o.listed = h.listed
  active : ∀ id, o.isActive id = true ↔ .registered id ∈ h ∧ .silenced id ∉ h
  silenced : ∀ id, .silenced id ∈ h → .registered id ∈ h
  voiced : Voiced o h

namespace Agrees

variable {initial : α} {o : Observable α (Listener σ α)} {h : History α}

theorem new (initial : α) : Agrees (σ := σ) initial (.new initial) [] where
  value := rfl
  version := rfl
  nextId := rfl
  listed := rfl
  active id := by simp [Observable.new, Observable.isActive]
  silenced id := by simp
  voiced := .new initial

theorem registered_iff (a : Agrees initial o h) {id : Nat} :
    .registered id ∈ h ↔ id < o.nextId := by
  rw [← mem_registered, ← a.nextId, List.mem_range]

theorem script_of_registered (a : Agrees initial o h) {id : Nat} (known : .registered id ∈ h) :
    ∃ name rules, o.callback? id = some (.script name rules) := by
  have small : id < o.subscribers.size := a.registered_iff.1 known
  have found : o.callback? id = some o.subscribers[id].callback := by
    simp [Observable.callback?, small]
  cases callback : o.subscribers[id].callback with
  | script name rules => exact ⟨name, rules, callback ▸ found⟩
  | keeper skip => exact absurd callback (a.voiced.script id _ found skip)

theorem store (a : Agrees initial o h) (v : α) :
    Agrees initial (o.store v) (h ++ [.committed (o.version + 1) v]) where
  value := by simp [current, stored?]
  version := by simp [stored?, a.version]
  nextId := by simpa [registered?, Observable.nextId, Observable.store] using a.nextId
  listed := by simpa [relist, Observable.store] using a.listed
  active id := by simpa [Observable.isActive, Observable.store] using a.active id
  silenced id := by simpa using a.silenced id
  voiced := .note (a.voiced.congr (Observable.callback?_store o v)) nofun

theorem register (a : Agrees initial o h) {callback : Listener σ α}
    (isScript : ∀ skip, callback ≠ .keeper skip) :
    Agrees initial (o.register callback) (h ++ [.registered o.nextId]) where
  value := by simpa [current, stored?, Observable.register] using a.value
  version := by simpa [stored?, Observable.register] using a.version
  nextId := by
    have size : (o.register callback).nextId = o.nextId + 1 := by
      simp [Observable.register, Observable.nextId]
    rw [size, List.range_succ, a.nextId]
    simp [registered?]
  listed := by simp [relist, Observable.register, a.listed]
  active id := by
    by_cases same : id = o.nextId
    · subst same
      -- Nobody can have been silenced who has not been registered before.
      have fresh : .silenced o.nextId ∉ h := fun was =>
        Nat.lt_irrefl _ (a.registered_iff.1 (a.silenced _ was))
      simp [fresh]
    · rw [Observable.isActive_register_of_ne same, a.active id]
      simp [same]
  silenced id was := by
    have was : .silenced id ∈ h := by simpa using was
    exact List.mem_append_left _ (a.silenced id was)
  voiced := .note (a.voiced.register isScript) nofun

theorem silence (a : Agrees initial o h) {id : Nat} (on : o.isActive id = true) :
    Agrees initial (o.silence id) (h ++ [.silenced id]) where
  value := by simpa [current, stored?, Observable.silence] using a.value
  version := by simpa [stored?, Observable.silence] using a.version
  nextId := by simpa [registered?, Observable.silence, Observable.nextId] using a.nextId
  listed := by simpa [relist, Observable.silence] using a.listed
  active j := by
    by_cases same : j = id
    · simp [same]
    · rw [Observable.isActive_silence_of_ne same, a.active j]
      simp [same]
  silenced j was := by
    have was : .silenced j ∈ h ∨ j = id := by simpa using was
    -- Whoever is active has been registered.
    rcases was with was | rfl
    · exact List.mem_append_left _ (a.silenced j was)
    · exact List.mem_append_left _ ((a.active j).1 on).1
  voiced := .note (a.voiced.congr (Observable.callback?_silence o id)) nofun

theorem delist (a : Agrees initial o h) (id : Nat) :
    Agrees initial (o.delist id) (h ++ [.delisted id]) where
  value := by simpa [current, stored?, Observable.delist] using a.value
  version := by simpa [stored?, Observable.delist] using a.version
  nextId := by simpa [registered?, Observable.delist, Observable.nextId] using a.nextId
  listed := by simp [relist, Observable.delist, a.listed]
  active j := by simpa [Observable.isActive, Observable.delist] using a.active j
  silenced j := by simpa using a.silenced j
  voiced := .note (a.voiced.congr (Observable.callback?_delist o id)) nofun

theorem neutral (a : Agrees initial o h) {x : Occurrence α} (hx : IsNeutral x)
    (voiced : Voiced o (h ++ [x])) : Agrees initial o (h ++ [x]) := by
  cases x <;> simp only [IsNeutral] at hx
  all_goals
    exact {
      value := by simpa [current, stored?] using a.value
      version := by simpa [stored?] using a.version
      nextId := by simpa [registered?] using a.nextId
      listed := by simpa [relist] using a.listed
      active := fun id => by simpa using a.active id
      silenced := fun id => by simpa using a.silenced id
      voiced := voiced }

theorem spend (a : Agrees initial o h) (id i : Nat) :
    Agrees initial (o.adjustCallback id (·.spend i)) h where
  value := a.value
  version := a.version
  nextId := by simpa [Observable.adjustCallback, Observable.nextId] using a.nextId
  listed := a.listed
  active j := by rw [Observable.isActive_adjustCallback, a.active j]
  silenced := a.silenced
  voiced := a.voiced.spend id i

theorem borrow (a : Agrees initial o h) : Agrees initial o.borrow h :=
  ⟨a.value, a.version, a.nextId, a.listed, a.active, a.silenced, a.voiced.congr fun _ => rfl⟩

theorem release (a : Agrees initial o h) : Agrees initial o.release h :=
  ⟨a.value, a.version, a.nextId, a.listed, a.active, a.silenced, a.voiced.congr fun _ => rfl⟩

end Agrees

end History

/-! ## Well-formed histories -/

open History

mutual

/-- `Episode initial h s`: after the history `h`, what happens in `s` falls into complete calls
    and passes. -/
inductive Episode (initial : α) : History α → History α → Prop
  | nil {h : History α} : Episode initial h []
  /-- A new subscriber has the next number, which nobody was silenced by.  It is called at once
      with the current value. -/
  | registered {h c s : History α} : .silenced (registered h).length ∉ h →
      Call initial none (registered h).length (h.current initial)
        (h ++ [.registered (registered h).length]) c →
      Episode initial (h ++ .registered (registered h).length :: c) s →
      Episode initial h (.registered (registered h).length :: c ++ s)
  /-- A change has the next number.  Its pass begins at once. -/
  | committed {h t s : History α} {v : α} :
      Turns initial ((stored h).length + 1) v (listed h)
        (h ++ [.committed ((stored h).length + 1) v]) t →
      Episode initial (h ++ .committed ((stored h).length + 1) v :: t) s →
      Episode initial h (.committed ((stored h).length + 1) v :: t ++ s)
  /-- A subscriber is silenced once, and then taken off the list. -/
  | silenced {h s : History α} {id : Nat} : .registered id ∈ h → .silenced id ∉ h →
      Episode initial (h ++ [.silenced id, .delisted id]) s →
      Episode initial h (.silenced id :: .delisted id :: s)
  /-- While somebody holds the value borrowed, a silenced subscriber stays on the list. -/
  | stuck {h s : History α} {id : Nat} : .registered id ∈ h → .silenced id ∉ h →
      Episode initial (h ++ [.silenced id]) s → Episode initial h (.silenced id :: s)

/-- `Call initial pass id v h c`: after the history `h`, `c` is a call of subscriber `id` with
    `v`, which its script receives at once, to the end of the call. -/
inductive Call (initial : α) : Option Nat → Nat → α → History α → History α → Prop
  | returned {pass : Option Nat} {id : Nat} {v : α} {h s : History α} (name : String) :
      Episode initial (h ++ [.called pass id v, .heard name v]) s →
      Call initial pass id v h (.called pass id v :: .heard name v :: s ++ [.returned pass id])
  | faulted {pass : Option Nat} {id : Nat} {v : α} {h s : History α} (name : String) :
      Episode initial (h ++ [.called pass id v, .heard name v]) s →
      Call initial pass id v h (.called pass id v :: .heard name v :: s ++ [.faulted pass id])

/-- `Turns initial number v ids h t`: after the history `h`, the subscribers `ids` have their turns
    in the pass of the change `number` to `v`, and `t` is what happens meanwhile. -/
inductive Turns (initial : α) : Nat → α → List Nat → History α → History α → Prop
  | nil {number : Nat} {v : α} {h : History α} : Turns initial number v [] h []
  | called {number id : Nat} {v : α} {ids : List Nat} {h c t : History α} : .silenced id ∉ h →
      Call initial (some number) id v h c → Turns initial number v ids (h ++ c) t →
      Turns initial number v (id :: ids) h (c ++ t)
  | passedOver {number id : Nat} {v : α} {ids : List Nat} {h t : History α} : .silenced id ∈ h →
      Turns initial number v ids (h ++ [.passedOver number id]) t →
      Turns initial number v (id :: ids) h (.passedOver number id :: t)

end

/-- The histories at which an action may begin: all that has not come to its end are the calls that
    the action lies in. -/
inductive Underway (initial : α) : History α → Prop
  | start : Underway initial []
  | further {h s : History α} : Underway initial h → Episode initial h s →
      Underway initial (h ++ s)
  /-- In the first call of a new subscriber. -/
  | first {h : History α} (name : String) : Underway initial h →
      .silenced (registered h).length ∉ h →
      Underway initial (h ++ [.registered (registered h).length,
        .called none (registered h).length (h.current initial), .heard name (h.current initial)])
  /-- In a call by the pass of a change, after the turns of those who are earlier on the list. -/
  | turn {h t : History α} {v : α} {early late : List Nat} {id : Nat} (name : String) :
      Underway initial h →
      listed h = early ++ id :: late →
      Turns initial ((stored h).length + 1) v early (h ++ [.committed ((stored h).length + 1) v])
        t →
      .silenced id ∉ h ++ .committed ((stored h).length + 1) v :: t →
      Underway initial (h ++ .committed ((stored h).length + 1) v :: t ++
        [.called (some ((stored h).length + 1)) id v, .heard name v])

/-- The state of an observable is the one after a history at which an action may begin. -/
structure History.Ready (initial : α) (o : Observable α (Listener σ α)) (h : History α) :
    Prop extends Agrees initial o h where
  underway : Underway initial h

/-! ## What follows from being well formed -/

variable {initial : α}

theorem Episode.append {h s t : History α} :
    Episode initial h s → Episode initial (h ++ s) t → Episode initial h (s ++ t)
  | .nil, e => by simpa using e
  | .registered new call rest, e => by
    rw [List.append_assoc]
    exact .registered new call (rest.append (by simpa using e))
  | .committed turns rest, e => by
    rw [List.append_assoc]
    exact .committed turns (rest.append (by simpa using e))
  | .silenced known new rest, e => .silenced known new (rest.append (by simpa using e))
  | .stuck known new rest, e => .stuck known new (rest.append (by simpa using e))

end LiveState
