import LiveState.Proofs.Loss
import LiveState.Proofs.Observable.Course

/-! # Operations at a place, and losses

What an operation at a place has to do with a loss, whatever the callbacks are: as long as nothing is
lost by what the operations do to the place themselves, an operation is alert to the loss if the
callbacks are, and a listener is if the steps of its rules are.  Subscriptions that end are left out,
since they are looked at elsewhere.
-/

namespace LiveState

open Course Course.Loss

variable {W σ α κ : Type} {c : Course W} {g : c.Loss}

namespace Place

variable {p : Place W α κ} {call call' : Nat → κ → α → Act W Unit}

/-- Whatever the operations do to the place themselves loses nothing, as long as no subscription
    ends. -/
structure Spared (g : c.Loss) (p : Place W α κ) : Prop where
  store : ∀ v, g.Spares (p.adjust (·.store v))
  register : ∀ callback, g.Spares (p.adjust (·.register callback))
  adjustCallback : ∀ id f, g.Spares (p.adjust (·.adjustCallback id f))
  borrow : g.Spares (p.adjust (·.borrow))
  release : g.Spares (p.adjust (·.release))
  note : ∀ o, g.Spares (p.note o)

theorem alertFrom_look {β γ : Type} {w : W} {view : Observable α κ → β} {f f' : β → Act W γ}
    (h : g.AlertFrom w (f (view (p.cell w))) (f' (view (p.cell w)))) :
    g.AlertFrom w (p.look view >>= f) (p.look view >>= f') :=
  AlertFrom.look h

theorem look_alert {β : Type} (view : Observable α κ → β) :
    g.Alert (p.look view) (p.look view) :=
  fun w hw => .of_carries (look_carries view w hw) id

theorem exclusive_alert : g.Alert p.exclusive p.exclusive := by
  refine fun w hw => alertFrom_look ?_
  cases (p.cell w).isBorrowed with
  | true => exact .panic hw
  | false => exact .pure hw ()

namespace Spared

variable (h : p.Spared g)
include h

theorem commit (v : α) : g.Alert (p.commit v) (p.commit v) := by
  refine exclusive_alert.bind fun _ => (h.store v).alert.bind fun _ w hw => alertFrom_look ?_
  exact ((h.note _).alert w hw).bind fun _ _ _ hu => .pure hu _

theorem borrowing {m m' : Act W Unit} (k : g.Alert m m') :
    g.Alert (p.borrowing m) (p.borrowing m') := by
  refine fun w hw => alertFrom_look ?_
  have inside := AlertFrom.bracket hw h.borrow (k _ (h.borrow.admits w hw).1) h.release
  exact inside.bind fun _ _ _ hu => .pure hu _

variable (k : ∀ id callback v, g.Alert (call id callback v) (call' id callback v))
include k

theorem deliver (pass : Option Nat) (id : Nat) (v : α) :
    g.Alert (p.deliver call pass id v) (p.deliver call' pass id v) := by
  refine fun w hw => alertFrom_look ?_
  cases (p.cell w).callback? id with
  | none => exact .pure hw ()
  | some callback =>
    refine ((h.note _).alert w hw).bind fun _ u _ hu => AlertFrom.rescuing ?_ (h.note _).alert
    exact (k id callback v u hu).bind fun _ u' _ hu' => (h.note _).alert u' hu'

theorem announce (number : Nat) (v : α) (ids : List Nat) :
    g.Alert (p.announce call number v ids) (p.announce call' number v ids) := by
  induction ids with
  | nil => exact fun w hw => .pure hw ()
  | cons id ids ih =>
    refine fun w hw => alertFrom_look ?_
    cases (p.cell w).isActive id with
    | true => exact (h.deliver k _ id v w hw).bind fun _ u _ hu => ih u hu
    | false => exact ((h.note _).alert w hw).bind fun _ u _ hu => ih u hu

theorem set (v : α) : g.Alert (p.set call v) (p.set call' v) :=
  (h.commit v).bind fun number w hw => alertFrom_look (h.announce k number v _ w hw)

theorem update (f : α → α) (faulty : Bool) {inside inside' : Act W Unit}
    (hi : g.Alert inside inside') :
    g.Alert (p.update call f faulty inside) (p.update call' f faulty inside') := by
  refine fun w hw => alertFrom_look ((hi w hw).bind fun _ u _ hu => ?_)
  cases faulty with
  | true => exact .panic hu
  | false => exact h.set k _ u hu

theorem subscribe (callback : κ) :
    g.Alert (p.subscribe call callback) (p.subscribe call' callback) := by
  refine exclusive_alert.bind fun _ w hw => alertFrom_look ?_
  refine ((h.register callback).alert w hw).bind fun _ u _ hu =>
    ((h.note _).alert u hu).bind fun _ v _ hv => alertFrom_look ?_
  exact (h.deliver k _ _ _ v hv).bind fun _ _ _ hv' => .pure hv' _

end Spared

end Place

/-! ## Listeners and actions -/

namespace Place.Spared

variable {p : Place W α (Listener σ α)} (h : p.Spared g)
include h

theorem obey {act act' : σ → Act W Unit} (k : ∀ s, g.Alert (act s) (act' s)) (id : Nat) (v : α)
    (i : Nat) (rules : List (Rule σ α)) :
    g.Alert (Listener.obey p act id v i rules) (Listener.obey p act' id v i rules) := by
  -- On the rules that are left, of which the first has number `i`.
  induction rules generalizing i with
  | nil => exact fun w hw => .pure hw ()
  | cons r rest ih =>
    simp only [Listener.obey]
    split
    · refine Alert.bind ?_ fun left => ?_
      · refine fun w hw => alertFrom_look ?_
        split
        · exact .pure hw _
        · exact ((h.adjustCallback id (·.spend i)).alert w hw).bind fun _ _ _ hu => .pure hu _
      · split
        · exact (Alert.forM r.body k).bind fun _ => ih (i + 1)
        · exact ih (i + 1)
    · exact ih (i + 1)

theorem hear {act act' : String → σ → Act W Unit}
    (k : ∀ name s, g.Alert (act name s) (act' name s)) {copy : α → Act W Unit}
    (copies : ∀ v, g.Alert (copy v) (copy v)) (id : Nat) (l : Listener σ α) (v : α) :
    g.Alert (Listener.hear p act copy id l v) (Listener.hear p act' copy id l v) := by
  cases l with
  | keeper skip =>
    cases skip with
    | true => exact (h.adjustCallback id fun _ => .keeper false).alert
    | false => exact copies v
  | script name rules =>
    exact (h.note (.heard name v)).alert.bind fun _ => h.obey (k name) id v 0 rules

theorem perform [Text.Describe α] {nested nested' : Nested W σ} (hn : Nested.Alert g nested nested')
    {copy : α → Act W Unit} (copies : ∀ v, g.Alert (copy v) (copy v))
    {enrol : String → Nat → W → W} (he : ∀ name id, g.Spares (enrol name id))
    (action : Observable.Action σ α) :
    g.Alert (action.perform p nested copy enrol) (action.perform p nested' copy enrol) := by
  have call := h.hear hn.act copies
  have inside (inner : List σ) : g.Alert (inner.forM nested.inside) (inner.forM nested'.inside) :=
    .forM inner hn.inside
  cases action with
  | get | version => exact fun w hw => (Place.look_alert _ w hw).map _
  | describe pretty => exact fun w hw => alertFrom_look (.pure hw _)
  | set v => exact (h.set call v).bind fun _ _ hw => .pure hw _
  | update f faulty inner | replaceWith f faulty inner =>
    exact (h.update call f faulty (inside inner)).bind fun _ _ hw => .pure hw _
  | borrow inner => exact fun w hw => (h.borrowing (inside inner) w hw).map _
  | subscribe name rules =>
    refine (h.subscribe call _).bind fun id => ?_
    exact (he name id).alert.bind fun _ _ hw => .pure hw _

end Place.Spared

theorem Subscription.Request.perform_alertFrom {p : Place W α κ} {id : Nat} {forget : W → W} {w : W}
    (hw : c.sound w) (hf : g.Spares forget) {request : Subscription.Request}
    (hu : request = .unsubscribe → g.AlertFrom w (p.unsubscribe id) (p.unsubscribe id)) :
    g.AlertFrom w (request.perform p id forget) (request.perform p id forget) := by
  cases request with
  | unsubscribe => exact (hu rfl).bind fun _ _ _ hv => .pure hv _
  | isActive => exact (Place.look_alert _ w hw).map _
  | describe pretty => exact Place.alertFrom_look (.pure hw _)
  | forget => exact (hf.alert w hw).bind fun _ _ _ hv => .pure hv _

end LiveState
