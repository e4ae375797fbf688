import LiveState.Proofs.Budget
import LiveState.Proofs.Observable.Callbacks
import LiveState.Proofs.Observable.Operations

/-! # The funds of listeners

A rule of a script has funds for running its body as often as it may still fire.  Firing it spends
what one run of the body costs; the body itself never changes.
-/

namespace LiveState

open Course

variable {W σ α : Type}

theorem sum_map_modify {β : Type} {l : List β} {i : Nat} {x : β} (h : l[i]? = some x)
    (f : β → β) (g : β → Nat) :
    ((l.modify i f).map g).sum + g x = (l.map g).sum + g (f x) := by
  induction l generalizing i with
  | nil => simp at h
  | cons y rest ih =>
    cases i with
    | zero =>
      obtain rfl : y = x := by simpa using h
      simp only [List.modify_zero_cons, List.map_cons, List.sum_cons]
      omega
    | succ i =>
      have := ih (i := i) (by simpa using h)
      simp only [List.modify_succ_cons, List.map_cons, List.sum_cons]
      omega

namespace Listener

/-- What the rules of a listener may still cost. -/
def funds (weight : σ → Nat) (l : Listener σ α) : Nat :=
  (l.rules.map fun r => r.remaining * (r.body.map weight).sum).sum

/-- However the rules are weighed one by one, what they weigh together are the funds of a script. -/
theorem eq_funds {weight : σ → Nat} {weigh : List (Rule σ α) → Nat} (none : weigh [] = 0)
    (one : ∀ r rest, weigh (r :: rest) = r.remaining * (r.body.map weight).sum + weigh rest)
    (name : String) (rules : List (Rule σ α)) : weigh rules = (script name rules).funds weight := by
  induction rules with
  | nil => simp [none, funds, Listener.rules]
  | cons r rest ih => simp [one, ih, funds, Listener.rules]

/-- What the rules of a listener run. -/
def bodies (l : Listener σ α) : List (List σ) := l.rules.map (·.body)

@[simp] theorem rules_spend (l : Listener σ α) (i : Nat) :
    (l.spend i).rules = l.rules.modify i Rule.spend := by
  cases l <;> simp [spend, rules]

@[simp] theorem bodies_spend (l : Listener σ α) (i : Nat) : (l.spend i).bodies = l.bodies := by
  have same (r : Rule σ α) : r.spend.body = r.body := rfl
  simp only [bodies, rules_spend]
  apply List.ext_getElem? fun j => ?_
  simp only [List.getElem?_map, List.getElem?_modify]
  split <;> cases l.rules[j]? <;> simp [same]

theorem funds_spend (weight : σ → Nat) {l : Listener σ α} {i : Nat} (left : l.remaining i ≠ 0)
    {body : List σ} (hb : l.bodies[i]? = some body) :
    (l.spend i).funds weight + (body.map weight).sum = l.funds weight := by
  obtain ⟨r, hr, rfl⟩ : ∃ r, l.rules[i]? = some r ∧ r.body = body := by
    simpa [bodies] using hb
  have left : r.remaining ≠ 0 := by simpa [remaining, hr] using left
  have moved := sum_map_modify hr Rule.spend fun r => r.remaining * (r.body.map weight).sum
  -- One of the runs that were left to the rule is this one.
  have split : r.remaining * (r.body.map weight).sum =
      (r.remaining - 1) * (r.body.map weight).sum + (r.body.map weight).sum := by
    rw [← Nat.succ_mul, Nat.succ_eq_add_one, Nat.sub_add_cancel (Nat.pos_of_ne_zero left)]
  simp only [funds, rules_spend]
  simp only [Rule.spend] at moved
  omega

end Listener

namespace Observable

/-- What the rules of all subscribers may still cost. -/
def funds (weight : σ → Nat) (o : Observable α (Listener σ α)) : Nat :=
  (o.subscribers.toList.map fun s => s.callback.funds weight).sum

/-- Every subscriber still has the same bodies. -/
def Kept (o o' : Observable α (Listener σ α)) : Prop :=
  ∀ id l, o.callback? id = some l → ∃ l', o'.callback? id = some l' ∧ l'.bodies = l.bodies

theorem Kept.of_callback {o o' : Observable α (Listener σ α)}
    (h : ∀ id, o'.callback? id = o.callback? id) : o.Kept o' :=
  fun id l hl => ⟨l, (h id).trans hl, rfl⟩

theorem Kept.trans {o o' o'' : Observable α (Listener σ α)} (h : o.Kept o') (k : o'.Kept o'') :
    o.Kept o'' := by
  intro id l hl
  obtain ⟨l', hl', same⟩ := h id l hl
  obtain ⟨l'', hl'', same'⟩ := k id l' hl'
  exact ⟨l'', hl'', same'.trans same⟩

theorem kept_register (o : Observable α (Listener σ α)) (l : Listener σ α) :
    o.Kept (o.register l) := by
  intro id l' hl
  refine ⟨l', ?_, rfl⟩
  rw [callback?_register_of_ne (Nat.ne_of_lt (lt_nextId_of_callback? hl)), hl]

theorem kept_adjustCallback {o : Observable α (Listener σ α)} {id : Nat}
    {f : Listener σ α → Listener σ α} {l : Listener σ α} (hl : o.callback? id = some l)
    (same : (f l).bodies = l.bodies) : o.Kept (o.adjustCallback id f) := by
  intro j l' hl'
  by_cases here : id = j
  · subst here
    obtain rfl : l = l' := by simpa [hl] using hl'
    exact ⟨f l, by rw [callback?_adjustCallback_self, hl, Option.map_some], same⟩
  · exact ⟨l', by rw [callback?_adjustCallback_of_ne (Ne.symm here), hl'], rfl⟩

theorem funds_silence (weight : σ → Nat) (o : Observable α (Listener σ α)) (id : Nat) :
    (o.silence id).funds weight = o.funds weight := by
  simp only [funds, silence, Array.toList_modify]
  cases hs : o.subscribers.toList[id]? with
  | none => rw [List.modify_eq_self (by simpa using hs)]
  | some s =>
    have moved := sum_map_modify hs (fun s => { s with active := false })
      fun s => s.callback.funds weight
    simp only at moved
    omega

theorem funds_register (weight : σ → Nat) (o : Observable α (Listener σ α)) (l : Listener σ α) :
    (o.register l).funds weight = o.funds weight + l.funds weight := by
  simp [funds, register]

theorem funds_adjustCallback (weight : σ → Nat) {o : Observable α (Listener σ α)} {id : Nat}
    {l : Listener σ α} (hl : o.callback? id = some l) (f : Listener σ α → Listener σ α) :
    (o.adjustCallback id f).funds weight + l.funds weight =
      o.funds weight + (f l).funds weight := by
  obtain ⟨s, hs, rfl⟩ : ∃ s, o.subscribers[id]? = some s ∧ s.callback = l := by
    simpa [callback?] using hl
  have moved := sum_map_modify (l := o.subscribers.toList) (i := id) (by simpa using hs)
    (fun s => { s with callback := f s.callback }) fun s => s.callback.funds weight
  simp only at moved
  simp only [funds, adjustCallback, Array.toList_modify]
  exact moved

end Observable

/-! ## Places that are paid for -/

namespace Place

variable {p : Place W α (Listener σ α)} {a : Account W} {weight : σ → Nat}
  {limit floor reserve : Nat}

/-- The account of the world counts what the subscribers at the place may still cost.  A change that
    misses the place costs nothing. -/
structure Funded (p : Place W α (Listener σ α)) (a : Account W) (weight : σ → Nat) : Prop where
  cell_note : ∀ o w, p.cell (p.note o w) = p.cell w
  spent_adjust : ∀ f w, a.spent (p.adjust f w) = a.spent w
  spent_note : ∀ o w, a.spent (p.note o w) = a.spent w
  funds_adjust : ∀ f w, a.funds (p.adjust f w) + (p.cell w).funds weight ≤
    a.funds w + (f (p.cell w)).funds weight
  funds_note : ∀ o w, a.funds (p.note o w) = a.funds w
  keeps_adjust : ∀ f w, (p.cell w).Kept (f (p.cell w)) → a.keeps w (p.adjust f w)
  keeps_note : ∀ o w, a.keeps w (p.note o w)
  kept : ∀ {w w'}, a.keeps w w' → (p.cell w).Kept (p.cell w')

namespace Funded

theorem adjust_sound (hp : p.Funded a weight) {w : W}
    {f : Observable α (Listener σ α) → Observable α (Listener σ α)} {kept : Nat}
    (hw : (a.course limit floor reserve).sound w) (keeps : (p.cell w).Kept (f (p.cell w)))
    (cost : (f (p.cell w)).funds weight + kept ≤ (p.cell w).funds weight + reserve) :
    (a.course limit floor kept).sound (p.adjust f w) := by
  obtain ⟨fair, within, above⟩ := hw
  have moved := hp.funds_adjust f w
  have spent := hp.spent_adjust f w
  exact ⟨a.remains (hp.keeps_adjust f w keeps) fair, by omega, by omega⟩

theorem admits_adjust (hp : p.Funded a weight)
    {f : Observable α (Listener σ α) → Observable α (Listener σ α)}
    (funds : ∀ o, (f o).funds weight = o.funds weight)
    (callback : ∀ o id, (f o).callback? id = o.callback? id) :
    (a.course limit floor reserve).Admits (p.adjust f) := by
  intro w hw
  have kept : (p.cell w).Kept (f (p.cell w)) := .of_callback (callback _)
  exact ⟨hp.adjust_sound hw kept (Nat.le_of_eq (by rw [funds])), rfl, hp.keeps_adjust f w kept⟩

theorem admits_note (hp : p.Funded a weight) (o : Occurrence α) :
    (a.course limit floor reserve).Admits (p.note o) := by
  rintro w ⟨fair, within, above⟩
  have kept := hp.keeps_note o w
  refine ⟨⟨a.remains kept fair, ?_, ?_⟩, rfl, kept⟩
  · rw [hp.spent_note, hp.funds_note]
    exact within
  · rw [hp.spent_note]
    exact above

theorem unwatched (hp : p.Funded a weight) :
    p.Unwatched (a.course limit floor reserve) where
  store _ := hp.admits_adjust (fun _ => rfl) fun _ _ => rfl
  silence id := hp.admits_adjust (fun o => o.funds_silence weight id)
    fun o => o.callback?_silence id
  delist _ := hp.admits_adjust (fun _ => rfl) fun _ _ => rfl
  note := hp.admits_note

theorem perform_tryFire {w : W} {id : Nat} {l : Listener σ α}
    (found : (p.cell w).callback? id = some l) (i : Nat) :
    (Listener.tryFire p id i).perform w =
      if l.remaining i = 0 then (.ok false, w)
      else (.ok true, p.adjust (·.adjustCallback id (·.spend i)) w) := by
  simp only [Listener.tryFire, Act.perform_bind, perform_look, found, Option.map_some,
    Option.getD_some]
  split <;> rfl

/-- Whoever fires a rule has set free what its body costs. -/
theorem tryFire_frees (hp : p.Funded a weight) {w : W} {id i : Nat} {l : Listener σ α}
    (found : (p.cell w).callback? id = some l) {body : List σ} (hb : l.bodies[i]? = some body)
    (hw : (a.course limit floor reserve).sound w) :
    (a.course limit floor reserve).CarriesFrom w (Listener.tryFire p id i)
        (Listener.tryFire p id i) ∧
      ∀ u, (Listener.tryFire p id i).perform w = (.ok true, u) →
        (a.course limit floor ((body.map weight).sum + reserve)).sound u := by
  by_cases left : l.remaining i = 0
  · have ran := perform_tryFire (p := p) found i
    rw [if_pos left] at ran
    refine ⟨⟨rfl, by rw [ran]; exact hw, by rw [ran]; exact ⟨rfl, a.refl w⟩⟩, fun u fired => ?_⟩
    rw [ran] at fired
    cases fired
  · have ran := perform_tryFire (p := p) found i
    rw [if_neg left] at ran
    have paid := Listener.funds_spend weight left hb
    have moved := Observable.funds_adjustCallback weight found (·.spend i)
    have kept : (p.cell w).Kept ((p.cell w).adjustCallback id (·.spend i)) :=
      Observable.kept_adjustCallback found (l.bodies_spend i)
    refine ⟨⟨rfl, ?_, ?_⟩, fun u fired => ?_⟩
    · rw [ran]
      exact hp.adjust_sound hw kept (by omega)
    · rw [ran]
      exact ⟨rfl, hp.keeps_adjust _ w kept⟩
    · rw [ran] at fired
      cases fired
      exact hp.adjust_sound hw kept (by omega)

/-- Going through the rules is free, because firing a rule sets free what its body costs. -/
theorem obey_carriesFrom (hp : p.Funded a weight) {act act' : σ → Act W Unit}
    (pays : ∀ s, a.Affords limit floor (weight s) (act s) (act' s)) (id : Nat) (v : α)
    {rules : List (Rule σ α)} {i : Nat} {w : W} {l : Listener σ α}
    (found : (p.cell w).callback? id = some l)
    (same : l.bodies.drop i = rules.map (·.body))
    (hw : (a.course limit floor reserve).sound w) :
    (a.course limit floor reserve).CarriesFrom w (Listener.obey p act id v i rules)
      (Listener.obey p act' id v i rules) := by
  induction rules generalizing i w l with
  | nil => exact .pure hw ()
  | cons r rest ih =>
    have body : l.bodies[i]? = some r.body := by
      have first := congrArg (·[0]?) same
      simpa [List.getElem?_drop] using first
    have rests : l.bodies.drop (i + 1) = rest.map (·.body) := by
      simpa using congrArg List.tail same
    -- What the callbacks do meanwhile may spend rules of this listener, but its bodies stay.
    have further (u : W) (keeps : a.keeps w u) (hu : (a.course limit floor reserve).sound u) :
        (a.course limit floor reserve).CarriesFrom u (Listener.obey p act id v (i + 1) rest)
          (Listener.obey p act' id v (i + 1) rest) := by
      obtain ⟨l', found', same'⟩ := hp.kept keeps id l found
      exact ih found' (by rw [same']; exact rests) hu
    simp only [Listener.obey]
    split
    · obtain ⟨tried, frees⟩ := hp.tryFire_frees found body hw
      refine tried.bind fun fired u ran hu => ?_
      have before : a.keeps w u := by simpa [ran] using tried.leads.2
      cases fired with
      | false => exact further u before hu
      | true =>
        -- What has been set free pays for the body.
        have fires := Account.Affords.forM pays r.body reserve u (frees u ran)
        refine fires.bind fun _ u' ran' hu' => ?_
        have after := fires.leads.2
        rw [ran'] at after
        exact further u' (a.trans before after) hu'
    · exact further w (a.refl w) hw

theorem served (hp : p.Funded a weight) {act act' : String → σ → Act W Unit}
    (pays : ∀ name s, a.Affords limit floor (weight s) (act name s) (act' name s))
    {copy : α → Act W Unit} (copies : ∀ v, a.Affords limit floor 0 (copy v) (copy v)) :
    p.Served (a.course limit floor reserve) (Listener.hear p act copy)
      (Listener.hear p act' copy) := by
  intro id w hw l found pass v
  have noted := (hp.admits_note (.called pass id v) w hw).1
  have still : (p.cell (p.note (.called pass id v) w)).callback? id = some l := by
    rw [hp.cell_note]
    exact found
  cases l with
  | keeper skip =>
    cases skip with
    -- A keeper has no rules, whether or not it skips.
    | true =>
      have moved := Observable.funds_adjustCallback weight still
        fun _ => Listener.keeper false
      have kept := Observable.kept_adjustCallback (f := fun _ => Listener.keeper false) still rfl
      refine .modify (hp.adjust_sound noted kept ?_) ⟨rfl, hp.keeps_adjust _ _ kept⟩
      simp only [Listener.funds, Listener.rules] at moved
      omega
    | false => exact (copies v).carries reserve _ noted
  | script name rules =>
    refine ((hp.admits_note (.heard name v)).carries _ noted).bind fun _ u ran hu => ?_
    cases ran
    refine hp.obey_carriesFrom (pays name) id v (l := .script name rules) ?_ rfl hu
    rw [hp.cell_note]
    exact still

theorem subscribe_affords (hp : p.Funded a weight)
    {call call' : Nat → Listener σ α → α → Act W Unit}
    (serves : ∀ reserve, p.Served (a.course limit floor reserve) call call') (l : Listener σ α) :
    a.Affords limit floor (l.funds weight) (p.subscribe call l) (p.subscribe call' l) := by
  intro reserve w hw
  -- Nothing is spent until the subscriber is registered.
  refine (exclusive_carries w (Account.spare hw)).bind fun _ u ran _ => ?_
  obtain rfl : w = u := (eq_of_exclusive_ok ran).symm
  refine carriesFrom_look ?_
  have kept := (p.cell w).kept_register l
  have registered : (a.course limit floor reserve).sound (p.adjust (·.register l) w) :=
    hp.adjust_sound hw kept (by rw [Observable.funds_register]; omega)
  refine (CarriesFrom.modify registered ⟨rfl, hp.keeps_adjust _ w kept⟩).bind fun _ u _ hu =>
    ((hp.admits_note _).carries u hu).bind fun _ v _ hv => carriesFrom_look ?_
  exact (deliver_carries hp.unwatched.quiescent (serves reserve _) _ _ v hv).bind
    fun _ v' _ hv' => .pure hv' _

end Funded

end Place

namespace Observable.Action

/-- How many steps an action may set off. -/
def cost (weight : σ → Nat) : Action σ α → Nat
  | .update _ _ inner | .replaceWith _ _ inner | .borrow inner => (inner.map weight).sum
  | .subscribe name rules => (Listener.script name rules).funds weight
  | .get | .version | .describe _ | .set _ => 0

/-- An action costs what the steps in it cost, and what the rules in it may cost. -/
theorem perform_affords [Text.Describe α] {p : Place W α (Listener σ α)} {a : Account W}
    {weight : σ → Nat} {limit floor : Nat} (hp : p.Funded a weight) {nested nested' : Nested W σ}
    {copy : α → Act W Unit} {enrol : String → Nat → W → W}
    (acts : ∀ name s, a.Affords limit floor (weight s) (nested.act name s) (nested'.act name s))
    (insides : ∀ s, a.Affords limit floor (weight s) (nested.inside s) (nested'.inside s))
    (copies : ∀ v, a.Affords limit floor 0 (copy v) (copy v))
    (enrols : ∀ name id reserve, (a.course limit floor reserve).Admits (enrol name id))
    (action : Action σ α) :
    a.Affords limit floor (action.cost weight) (action.perform p nested copy enrol)
      (action.perform p nested' copy enrol) := by
  have serves (reserve : Nat) : p.Served (a.course limit floor reserve)
      (Listener.hear p nested.act copy) (Listener.hear p nested'.act copy) :=
    hp.served acts copies
  have inside (inner : List σ) := Account.Affords.forM insides inner
  cases action with
  | get | version => exact .free fun _ w hw => (Place.look_carries _ w hw).map _
  | describe pretty => exact .free fun _ w hw => Place.carriesFrom_look (.pure hw _)
  | set v =>
    exact .free fun _ => (hp.unwatched.set (serves _) v).bind fun _ w hw => .pure hw _
  | update f faulty inner | replaceWith f faulty inner =>
    intro reserve w hw
    refine CarriesFrom.bind ?_ fun _ v _ hv => .pure hv _
    refine Place.carriesFrom_look ((inside inner reserve w hw).bind fun _ v _ hv => ?_)
    cases faulty with
    | true => exact .panic hv
    | false => exact hp.unwatched.set (serves _) _ v hv
  | borrow inner =>
    intro reserve w hw
    have borrow (reserve : Nat) :
        (a.course limit floor reserve).Admits (p.adjust (·.borrow)) :=
      hp.admits_adjust (fun _ => rfl) fun _ _ => rfl
    -- The steps inside are paid for from the world in which the value is already held.
    obtain ⟨entered, kept⟩ := borrow _ w hw
    have held : (a.course limit floor reserve).CarriesFrom w
        (p.borrowing (inner.forM nested.inside)) (p.borrowing (inner.forM nested'.inside)) :=
      Place.borrowing_carriesFrom kept (inside inner reserve _ entered)
        (hp.admits_adjust (fun _ => rfl) fun _ _ => rfl)
    exact held.map _
  | subscribe name rules =>
    refine (hp.subscribe_affords serves _).andThen fun id => .free fun _ => ?_
    exact (enrols name id _).carries.bind fun _ w hw => .pure hw _

end Observable.Action

end LiveState
