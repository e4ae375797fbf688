import LiveState.Proofs.Accord
import LiveState.Proofs.Observable.Callbacks
import LiveState.Proofs.Observable.Operations

/-! # Operations in accord

Two worlds hold the same observable at a place, and the same is done to it in both.  All that may
differ is what a keeper does with a value, as long as nobody sees that: the keeper is called by a
pass that catches its panics, and the notes that it has returned or panicked are not seen.
-/

namespace LiveState

open Act

variable {W σ α : Type} {R : W → W → Prop} {allowed : σ → Prop} {kept : Nat → Prop}

/-! ## Tame observables -/

/-- Only subscribers with certain numbers copy values, and the steps in all scripts are allowed. -/
structure Observable.Tame (allowed : σ → Prop) (kept : Nat → Prop)
    (o : Observable α (Listener σ α)) : Prop where
  within : ∀ id l, o.callback? id = some l → l.Within allowed
  keeper : ∀ id skip, o.callback? id = some (.keeper skip) → kept id

namespace Observable

variable {o : Observable α (Listener σ α)}

theorem tame_new (v : α) : (Observable.new v : Observable α (Listener σ α)).Tame allowed kept where
  within id l found := by simp [callback?, new] at found
  keeper id skip found := by simp [callback?, new] at found

namespace Tame

theorem of_callbacks {o' : Observable α (Listener σ α)} (h : o.Tame allowed kept)
    (same : ∀ id, o'.callback? id = o.callback? id) : o'.Tame allowed kept where
  within id l found := h.within id l (same id ▸ found)
  keeper id skip found := h.keeper id skip (same id ▸ found)

theorem silence (h : o.Tame allowed kept) (id : Nat) : (o.silence id).Tame allowed kept :=
  h.of_callbacks (callback?_silence o id)

theorem register (h : o.Tame allowed kept) {l : Listener σ α} (within : l.Within allowed)
    (keeper : ∀ skip, l = .keeper skip → kept o.nextId) : (o.register l).Tame allowed kept where
  within id l' found := by
    by_cases fresh : id = o.nextId
    · rw [fresh, callback?_register_self] at found
      exact Option.some.inj found ▸ within
    · rw [callback?_register_of_ne fresh] at found
      exact h.within id l' found
  keeper id skip found := by
    by_cases fresh : id = o.nextId
    · rw [fresh, callback?_register_self] at found
      exact fresh ▸ keeper skip (Option.some.inj found)
    · rw [callback?_register_of_ne fresh] at found
      exact h.keeper id skip found

theorem adjustCallback (h : o.Tame allowed kept) (id : Nat) {f : Listener σ α → Listener σ α}
    (within : ∀ l, o.callback? id = some l → (f l).Within allowed)
    (keeper : ∀ l skip, o.callback? id = some l → f l = .keeper skip → kept id) :
    (o.adjustCallback id f).Tame allowed kept where
  within j l found := by
    by_cases here : j = id
    · rw [here, callback?_adjustCallback_self] at found
      obtain ⟨l', was, rfl⟩ := Option.map_eq_some_iff.1 found
      exact within l' was
    · rw [callback?_adjustCallback_of_ne here] at found
      exact h.within j l found
  keeper j skip found := by
    by_cases here : j = id
    · rw [here, callback?_adjustCallback_self] at found
      obtain ⟨l', was, now⟩ := Option.map_eq_some_iff.1 found
      exact here ▸ keeper l' skip was now
    · rw [callback?_adjustCallback_of_ne here] at found
      exact h.keeper j skip found

theorem spend (h : o.Tame allowed kept) (id i : Nat) :
    (o.adjustCallback id (·.spend i)).Tame allowed kept := by
  refine h.adjustCallback id (fun l was => Listener.within_spend (h.within id l was)) ?_
  intro l skip was now
  cases l with
  | keeper _ => exact h.keeper id _ was
  | script _ _ => cases now

theorem keep (h : o.Tame allowed kept) {id : Nat} (keeps : kept id) :
    (o.adjustCallback id fun _ => .keeper false).Tame allowed kept :=
  h.adjustCallback id (fun _ _ => by simp [Listener.Within, Listener.rules]) fun _ _ _ _ => keeps

end Tame

end Observable

/-! ## Places -/

/-- Related worlds hold the same tame observable at a place, and remain related when the same is
    done to it; whether a keeper has returned or panicked is not seen. -/
structure Place.Common (R : W → W → Prop) (allowed : σ → Prop) (kept : Nat → Prop)
    (p : Place W α (Listener σ α)) : Prop where
  cell : ∀ w w', R w w' → p.cell w = p.cell w'
  tame : ∀ w w', R w w' → (p.cell w).Tame allowed kept
  adjust : ∀ w w' f, R w w' → (f (p.cell w)).Tame allowed kept → R (p.adjust f w) (p.adjust f w')
  note : ∀ w w' o, R w w' → R (p.note o w) (p.note o w')
  returned : ∀ pass id, kept id → Unseen R (p.note (.returned pass id))
  faulted : ∀ pass id, kept id → Unseen R (p.note (.faulted pass id))

namespace Place.Common

variable {p : Place W α (Listener σ α)} {w w' : W}

theorem look {β γ : Type} (h : p.Common R allowed kept) (hw : R w w') {view : Observable α _ → β}
    {f f' : β → Act W γ}
    (k : AccordFrom R w w' (f (view (p.cell w))) (f' (view (p.cell w)))) :
    AccordFrom R w w' (p.look view >>= f) (p.look view >>= f') :=
  .look (congrArg view (h.cell w w' hw)) k

theorem view {β : Type} (h : p.Common R allowed kept) (hw : R w w') (view : Observable α _ → β) :
    AccordFrom R w w' (p.look view) (p.look view) :=
  .view hw (congrArg view (h.cell w w' hw))

theorem jot (h : p.Common R allowed kept) (o : Occurrence α) : Accord R (p.jot o) (p.jot o) :=
  fun w w' hw => .modify (h.note w w' o hw)

theorem change (h : p.Common R allowed kept) (hw : R w w')
    {f : Observable α (Listener σ α) → Observable α (Listener σ α)}
    (tame : (f (p.cell w)).Tame allowed kept) : AccordFrom R w w' (p.change f) (p.change f) :=
  .modify (h.adjust w w' f hw tame)

theorem exclusive (h : p.Common R allowed kept) : Accord R p.exclusive p.exclusive := by
  intro w w' hw
  refine h.look hw ?_
  cases (p.cell w).isBorrowed with
  | true => exact .panic hw
  | false => exact .pure hw ()

theorem commit (h : p.Common R allowed kept) (v : α) : Accord R (p.commit v) (p.commit v) := by
  refine h.exclusive.bind fun _ w w' hw => ?_
  refine (h.change hw ((h.tame w w' hw).of_callbacks fun _ => rfl)).bind fun _ u u' _ _ hu => ?_
  exact h.look hu ((h.jot _ u u' hu).bind fun _ v v' _ _ hv => .pure hv _)

theorem unsubscribe (h : p.Common R allowed kept) (id : Nat) :
    Accord R (p.unsubscribe id) (p.unsubscribe id) := by
  intro w w' hw
  refine h.look hw ?_
  cases (p.cell w).isActive id with
  | false => exact .pure hw ()
  | true =>
    refine (h.change hw ((h.tame w w' hw).silence id)).bind fun _ u u' _ _ hu => ?_
    refine ((h.jot _).bind fun _ => h.exclusive.bind fun _ v v' hv => ?_) u u' hu
    refine (h.change hv ((h.tame v v' hv).of_callbacks fun _ => rfl)).bind fun _ x x' _ _ hx => ?_
    exact h.jot _ x x' hx

theorem borrowing (h : p.Common R allowed kept) {m m' : Act W Unit} (hm : Accord R m m') :
    Accord R (p.borrowing m) (p.borrowing m') := by
  intro w w' hw
  refine h.look hw (AccordFrom.bind ?_ fun _ u u' _ _ hu => .pure hu _)
  have borrowed := h.adjust w w' (·.borrow) hw ((h.tame w w' hw).of_callbacks fun _ => rfl)
  exact .bracket (hm _ _ borrowed) fun v v' hv =>
    h.adjust v v' (·.release) hv ((h.tame v v' hv).of_callbacks fun _ => rfl)

/-! ### Calling callbacks -/

section

variable {call call' : Nat → Listener σ α → α → Act W Unit}

theorem announce (h : p.Common R allowed kept)
    (k : ∀ pass id v, Accord R (p.deliver call pass id v) (p.deliver call' pass id v))
    (number : Nat) (v : α) (ids : List Nat) :
    Accord R (p.announce call number v ids) (p.announce call' number v ids) := by
  induction ids with
  | nil => exact fun w w' hw => .pure hw ()
  | cons id ids ih =>
    intro w w' hw
    refine h.look hw ?_
    cases (p.cell w).isActive id with
    | true => exact (k _ id v).bind (fun _ => ih) w w' hw
    | false => exact (h.jot _).bind (fun _ => ih) w w' hw

theorem set (h : p.Common R allowed kept)
    (k : ∀ pass id v, Accord R (p.deliver call pass id v) (p.deliver call' pass id v)) (v : α) :
    Accord R (p.set call v) (p.set call' v) :=
  (h.commit v).bind fun number w w' hw => h.look hw (h.announce k number v _ w w' hw)

theorem update (h : p.Common R allowed kept)
    (k : ∀ pass id v, Accord R (p.deliver call pass id v) (p.deliver call' pass id v))
    (f : α → α) (faulty : Bool) {m m' : Act W Unit} (hm : Accord R m m') :
    Accord R (p.update call f faulty m) (p.update call' f faulty m') := by
  refine fun w w' hw => h.look hw ((hm w w' hw).bind fun _ u u' _ _ hu => ?_)
  cases faulty with
  | true => exact .panic hu
  | false => exact h.set k _ u u' hu

theorem subscribe (h : p.Common R allowed kept)
    (k : ∀ pass id v, Accord R (p.deliver call pass id v) (p.deliver call' pass id v))
    {l : Listener σ α} (hw : R w w') (within : l.Within allowed)
    (keeper : ∀ skip, l = .keeper skip → kept (p.cell w).nextId) :
    AccordFrom R w w' (p.subscribe call l) (p.subscribe call' l) := by
  refine (h.exclusive w w' hw).bind fun _ u u' ran _ hu => h.look hu ?_
  obtain rfl := eq_of_exclusive_ok ran
  have tame := (h.tame u u' hu).register within keeper
  refine (h.change hu tame).bind fun _ v v' _ _ hv => ?_
  refine (h.jot _ v v' hv).bind fun _ x x' _ _ hx => h.look hx ?_
  exact (k none _ _ x x' hx).bind fun _ y y' _ _ hy => .pure hy _

end

end Place.Common

/-! ## Listeners -/

namespace Listener

variable {p : Place W α (Listener σ α)}

theorem obey_accord (h : p.Common R allowed kept) {act act' : σ → Act W Unit}
    (k : ∀ s, allowed s → Accord R (act s) (act' s)) (id : Nat) (v : α) (rules : List (Rule σ α))
    (hr : ∀ r ∈ rules, ∀ s ∈ r.body, allowed s) (i : Nat) :
    Accord R (obey p act id v i rules) (obey p act' id v i rules) := by
  induction rules generalizing i with
  | nil => exact fun w w' hw => .pure hw ()
  | cons r rules ih =>
    have further := ih (fun s hs => hr s (List.mem_cons_of_mem r hs)) (i + 1)
    have fires : Accord R (tryFire p id i) (tryFire p id i) := by
      refine fun w w' hw => h.look hw ?_
      split
      · exact .pure hw _
      · exact (h.change hw ((h.tame w w' hw).spend id i)).bind fun _ u u' _ _ hu => .pure hu _
    simp only [obey]
    split
    · refine fires.bind fun left => ?_
      split
      · exact Accord.bind (.forM fun s hs => k s (hr r List.mem_cons_self s hs)) fun _ => further
      · exact further
    · exact further

/-- A subscriber is called on both sides; what a keeper does with the value may differ. -/
theorem deliver_accord (symm : ∀ w w', R w w' → R w' w) (h : p.Common R allowed kept)
    {nested nested' : Nested W σ} (hn : Nested.Accord R allowed nested nested')
    {copy copy' : α → Act W Unit} (hc : ∀ v, Aside R (copy v)) (hc' : ∀ v, Aside R (copy' v))
    (pass : Option Nat) (id : Nat) (v : α) :
    Accord R (p.deliver (hear p nested.act copy) pass id v)
      (p.deliver (hear p nested'.act copy') pass id v) := by
  intro w w' hw
  refine h.look hw ?_
  have tame := h.tame w w' hw
  cases found : (p.cell w).callback? id with
  | none => exact .pure hw ()
  | some l =>
    refine (h.jot _ w w' hw).bind fun _ u u' _ _ hu => ?_
    -- A keeper copies into media that need not be related, so that its ending is not compared; a
    -- script runs related steps.
    cases l with
    | keeper skip =>
      have keeps := tame.keeper id skip found
      cases skip with
      | true =>
        refine AccordFrom.rescuing ?_ (h.jot _)
        have spent := h.change (f := (·.adjustCallback id fun _ => .keeper false)) hu
          ((h.tame u u' hu).keep keeps)
        exact spent.bind fun _ v v' _ _ hv => h.jot _ v v' hv
      | false =>
        exact (hc v).accord symm (hc' v) (h.returned pass id keeps) (h.faulted pass id keeps)
          u u' hu
    | script name rules =>
      refine AccordFrom.rescuing ?_ (h.jot _)
      have heard : Accord R (hear p nested.act copy id (.script name rules) v)
          (hear p nested'.act copy' id (.script name rules) v) :=
        (h.jot _).bind fun _ => obey_accord h (hn.act name) id v rules (tame.within id _ found) 0
      exact (heard u u' hu).bind fun _ v v' _ _ hv => h.jot _ v v' hv

end Listener

/-! ## Actions -/

section

variable {p : Place W α (Listener σ α)} {nested nested' : Nested W σ} {copy copy' : α → Act W Unit}

theorem Observable.Action.perform_accord [Text.Describe α] (h : p.Common R allowed kept)
    (hn : Nested.Accord R allowed nested nested')
    (calls : ∀ pass id v, Accord R (p.deliver (Listener.hear p nested.act copy) pass id v)
      (p.deliver (Listener.hear p nested'.act copy') pass id v))
    {enrol : String → Nat → W → W}
    (he : ∀ name id w w', R w w' → R (enrol name id w) (enrol name id w'))
    (action : Action σ α) (ha : action.Within allowed) :
    Accord R (action.perform p nested copy enrol) (action.perform p nested' copy' enrol) := by
  have inside (inner : List σ) (hi : ∀ s ∈ inner, allowed s) :
      Accord R (inner.forM nested.inside) (inner.forM nested'.inside) :=
    .forM fun s hs => hn.inside s (hi s hs)
  cases action with
  | get | version =>
    exact fun w w' hw => (h.view hw _).map _
  | describe pretty => exact fun w w' hw => h.look hw (.pure hw _)
  | set v => exact (h.set calls v).bind fun _ w w' hw => .pure hw _
  | update f faulty inner | replaceWith f faulty inner =>
    exact (h.update calls f faulty (inside inner ha)).bind fun _ w w' hw => .pure hw _
  | borrow inner => exact fun w w' hw => (h.borrowing (inside inner ha) w w' hw).map _
  | subscribe name rules =>
    intro w w' hw
    have script := ha.script
    refine (h.subscribe calls hw script.1 fun skip same => absurd same (script.2 skip)).bind
      fun id u u' _ _ hu => ?_
    exact (AccordFrom.modify (he name id u u' hu)).bind fun _ v v' _ _ hv => .pure hv _

theorem Subscription.Request.perform_accord (h : p.Common R allowed kept) {forget : W → W}
    (hf : ∀ w w', R w w' → R (forget w) (forget w')) (id : Nat) (request : Subscription.Request) :
    Accord R (request.perform p id forget) (request.perform p id forget) := by
  cases request with
  | unsubscribe => exact (h.unsubscribe id).bind fun _ w w' hw => .pure hw _
  | isActive => exact fun w w' hw => (h.view hw _).map _
  | describe pretty => exact fun w w' hw => h.look hw (.pure hw _)
  | forget =>
    exact fun w w' hw => (AccordFrom.modify (hf w w' hw)).bind fun _ u u' _ _ hu => .pure hu _

end

end LiveState
