import LiveState.Observable.Action
import LiveState.Proofs.Course
import LiveState.Proofs.Observable.History
import LiveState.Subscription

/-! # Operations at a place, and courses

What an operation at a place has to do with a course, whatever the callbacks are: if the callbacks
stay on it, so does the operation.  For a place that the course does not watch this needs nothing
else; a place that it does watch is looked at elsewhere, once for each course, and joins the others
in `Place.Steady`.
-/

namespace LiveState

open Course

variable {W σ α κ : Type} {c : Course W}

namespace Place

variable {p : Place W α κ} {ok : κ → Prop} {call call' : Nat → κ → α → Act W Unit}

/-- Whatever the operations do to the place themselves stays on the course, apart from registering
    callbacks and borrowing the value. -/
structure Unwatched (c : Course W) (p : Place W α κ) : Prop where
  store : ∀ v, c.Admits (p.adjust (·.store v))
  silence : ∀ id, c.Admits (p.adjust (·.silence id))
  delist : ∀ id, c.Admits (p.adjust (·.delist id))
  note : ∀ o, c.Admits (p.note o)

/-- Noting what is not a change stays on the course. -/
def Quiescent (c : Course W) (p : Place W α κ) : Prop :=
  ∀ o, History.stored? o = none → c.Admits (p.note o)

/-- Noting what is not a change stays on the course, but perhaps not the return of a subscriber other
    than `id`. -/
def QuiescentAt (c : Course W) (p : Place W α κ) (id : Nat) : Prop :=
  ∀ o, History.stored? o = none → (∀ pass j, o = .returned pass j → j = id) → c.Admits (p.note o)

theorem Quiescent.at_ (h : p.Quiescent c) (id : Nat) : p.QuiescentAt c id := fun o ho _ => h o ho

/-- The callback of subscriber `id` stays on the course when it is called. -/
def ServedAt (c : Course W) (p : Place W α κ) (id : Nat) (call call' : Nat → κ → α → Act W Unit) :
    Prop :=
  ∀ w, c.sound w → ∀ callback, (p.cell w).callback? id = some callback → ∀ pass v,
    c.CarriesFrom (p.note (.called pass id v) w) (call id callback v) (call' id callback v)

/-- All callbacks stay on the course when they are called. -/
def Served (c : Course W) (p : Place W α κ) (call call' : Nat → κ → α → Act W Unit) : Prop :=
  ∀ id, p.ServedAt c id call call'

/-- The operations at the place that call callbacks stay on the course. -/
structure Steady (c : Course W) (p : Place W α κ) (ok : κ → Prop)
    (call call' : Nat → κ → α → Act W Unit) : Prop where
  set : ∀ v, c.Carries (p.set call v) (p.set call' v)
  borrowing : ∀ m m', c.Carries m m' → c.Carries (p.borrowing m) (p.borrowing m')
  subscribe : ∀ callback, ok callback →
    c.Carries (p.subscribe call callback) (p.subscribe call' callback)

theorem Steady.mono {ok' : κ → Prop} (h : p.Steady c ok call call') (imp : ∀ k, ok' k → ok k) :
    p.Steady c ok' call call' :=
  ⟨h.set, h.borrowing, fun callback hok => h.subscribe callback (imp callback hok)⟩

theorem carriesFrom_look {β γ : Type} {w : W} {view : Observable α κ → β} {f f' : β → Act W γ}
    (h : c.CarriesFrom w (f (view (p.cell w))) (f' (view (p.cell w)))) :
    c.CarriesFrom w (p.look view >>= f) (p.look view >>= f') :=
  CarriesFrom.look h

theorem look_carries {β : Type} (view : Observable α κ → β) :
    c.Carries (p.look view) (p.look view) :=
  fun w hw => ⟨rfl, hw, c.refl w⟩

theorem Steady.update (h : p.Steady c ok call call') (f : α → α) (faulty : Bool)
    {inside inside' : Act W Unit} (hi : c.Carries inside inside') :
    c.Carries (p.update call f faulty inside) (p.update call' f faulty inside') := by
  intro w hw
  refine carriesFrom_look ((hi w hw).bind fun _ v _ hv => ?_)
  cases faulty with
  | true => exact .panic hv
  | false => exact h.set _ v hv

theorem exclusive_carries : c.Carries p.exclusive p.exclusive := by
  intro w hw
  refine carriesFrom_look ?_
  cases (p.cell w).isBorrowed with
  | true => exact .panic hw
  | false => exact .pure hw ()

theorem borrowing_carriesFrom {w : W} {m m' : Act W Unit}
    (borrow : c.leads false w (p.adjust (·.borrow) w))
    (h : c.CarriesFrom (p.adjust (·.borrow) w) m m') (release : c.Admits (p.adjust (·.release))) :
    c.CarriesFrom w (p.borrowing m) (p.borrowing m') :=
  carriesFrom_look ((CarriesFrom.bracket borrow h release).bind fun _ _ _ hv => .pure hv _)

theorem borrowing_carries (borrow : c.Admits (p.adjust (·.borrow)))
    (release : c.Admits (p.adjust (·.release))) {m m' : Act W Unit} (h : c.Carries m m') :
    c.Carries (p.borrowing m) (p.borrowing m') :=
  fun w hw => borrowing_carriesFrom (borrow w hw).2 (h _ (borrow w hw).1) release

/-! ## Calling callbacks -/

theorem deliver_carries_at {id : Nat} (h : p.QuiescentAt c id) (k : p.ServedAt c id call call')
    (pass : Option Nat) (v : α) :
    c.Carries (p.deliver call pass id v) (p.deliver call' pass id v) := by
  intro w hw
  refine carriesFrom_look ?_
  cases found : (p.cell w).callback? id with
  | none => exact .pure hw ()
  | some callback =>
    have noted := h (.called pass id v) rfl nofun w hw
    refine (CarriesFrom.modify noted.1 noted.2).bind fun _ u ran hu =>
      CarriesFrom.rescuing ?_ fun v _ hv => (h (.faulted pass id) rfl nofun).carries v hv
    cases ran
    have returned := h (.returned pass id) rfl fun _ _ same => by cases same; rfl
    exact (k w hw callback found pass v).bind fun _ u' _ hu' => returned.carries u' hu'

theorem deliver_carries (h : p.Quiescent c) {id : Nat} (k : p.ServedAt c id call call')
    (pass : Option Nat) (v : α) :
    c.Carries (p.deliver call pass id v) (p.deliver call' pass id v) :=
  deliver_carries_at (h.at_ id) k pass v

theorem announce_carries_at (number : Nat) (v : α) {ids : List Nat}
    (h : ∀ id ∈ ids, p.QuiescentAt c id) (k : ∀ id ∈ ids, p.ServedAt c id call call') :
    c.Carries (p.announce call number v ids) (p.announce call' number v ids) := by
  induction ids with
  | nil => exact fun w hw => .pure hw ()
  | cons id ids ih =>
    have rest := ih (fun j hj => h j (List.mem_cons_of_mem id hj))
      fun j hj => k j (List.mem_cons_of_mem id hj)
    have here := h id List.mem_cons_self
    intro w hw
    refine carriesFrom_look ?_
    cases (p.cell w).isActive id with
    | true =>
      exact (deliver_carries_at here (k id List.mem_cons_self) _ _ w hw).bind
        fun _ u _ hu => rest u hu
    | false =>
      exact ((here (.passedOver number id) rfl nofun).carries w hw).bind fun _ u _ hu => rest u hu

theorem announce_carries (h : p.Quiescent c) (number : Nat) (v : α) {ids : List Nat}
    (k : ∀ id ∈ ids, p.ServedAt c id call call') :
    c.Carries (p.announce call number v ids) (p.announce call' number v ids) :=
  announce_carries_at number v (fun id _ => h.at_ id) k

theorem subscribe_carries_at {callback : κ} (register : c.Admits (p.adjust (·.register callback)))
    (h : ∀ w, c.sound w → p.QuiescentAt c (p.cell w).nextId)
    (k : ∀ w, c.sound w → p.ServedAt c (p.cell w).nextId call call') :
    c.Carries (p.subscribe call callback) (p.subscribe call' callback) := by
  refine exclusive_carries.bind fun _ w hw => carriesFrom_look ?_
  have here := h w hw
  -- The number was given before the callback was registered.
  refine (register.carries w hw).bind fun _ u _ hu =>
    ((here (.registered (p.cell w).nextId) rfl nofun).carries u hu).bind fun _ v _ hv => ?_
  exact carriesFrom_look ((deliver_carries_at here (k w hw) _ _ v hv).bind
    fun _ v' _ hv' => .pure hv' _)

theorem subscribe_carries (h : p.Quiescent c) {callback : κ}
    (register : c.Admits (p.adjust (·.register callback)))
    (k : ∀ w, c.sound w → p.ServedAt c (p.cell w).nextId call call') :
    c.Carries (p.subscribe call callback) (p.subscribe call' callback) :=
  subscribe_carries_at register (fun _ _ => h.at_ _) k

theorem unsubscribe_carries_at {id : Nat} (h : p.QuiescentAt c id)
    (silence : c.Admits (p.adjust (·.silence id))) (delist : c.Admits (p.adjust (·.delist id))) :
    c.Carries (p.unsubscribe id) (p.unsubscribe id) := by
  intro w hw
  refine carriesFrom_look ?_
  cases (p.cell w).isActive id with
  | false => exact .pure hw ()
  | true =>
    -- A panic on the way leaves a sound world as well, in which the subscriber is still listed.
    exact (silence.carries.bind fun _ => (h (.silenced id) rfl nofun).carries.bind fun _ =>
      exclusive_carries.bind fun _ => delist.carries.bind fun _ =>
        (h (.delisted id) rfl nofun).carries) w hw

theorem unsubscribe_carries (h : p.Quiescent c) {id : Nat}
    (silence : c.Admits (p.adjust (·.silence id))) (delist : c.Admits (p.adjust (·.delist id))) :
    c.Carries (p.unsubscribe id) (p.unsubscribe id) :=
  unsubscribe_carries_at (h.at_ id) silence delist

namespace Unwatched

theorem quiescent (h : p.Unwatched c) : p.Quiescent c := fun o _ => h.note o

theorem set (h : p.Unwatched c) (k : p.Served c call call') (v : α) :
    c.Carries (p.set call v) (p.set call' v) := by
  refine Carries.bind ?_ fun number w hw =>
    carriesFrom_look (announce_carries h.quiescent number v (fun id _ => k id) w hw)
  refine exclusive_carries.bind fun _ => (h.store v).carries.bind fun _ w hw => ?_
  exact carriesFrom_look (((h.note _).carries w hw).bind fun _ u _ hu => .pure hu _)

theorem steady (h : p.Unwatched c) (k : p.Served c call call')
    (register : ∀ callback, ok callback → c.Admits (p.adjust (·.register callback)))
    (borrowing : ∀ m m', c.Carries m m' → c.Carries (p.borrowing m) (p.borrowing m')) :
    p.Steady c ok call call' where
  set := h.set k
  borrowing := borrowing
  subscribe callback hok :=
    subscribe_carries h.quiescent (register callback hok) fun w _ => k (p.cell w).nextId

theorem unsubscribe (h : p.Unwatched c) (id : Nat) :
    c.Carries (p.unsubscribe id) (p.unsubscribe id) :=
  unsubscribe_carries h.quiescent (h.silence id) (h.delist id)

end Unwatched

end Place

/-! ## Listeners and actions -/

namespace Listener

variable {p : Place W α (Listener σ α)} {allowed : σ → Prop}

/-- All steps in the rules of a listener are allowed. -/
def Within (allowed : σ → Prop) (l : Listener σ α) : Prop :=
  ∀ r ∈ l.rules, ∀ s ∈ r.body, allowed s

theorem within_true (l : Listener σ α) : l.Within fun _ => True := fun _ _ _ _ => trivial

/-- Scripts whose steps are allowed. -/
def IsScript (allowed : σ → Prop) (l : Listener σ α) : Prop :=
  l.Within allowed ∧ ∀ skip, l ≠ .keeper skip

/-- What a listener does to its place, apart from the steps of its rules. -/
structure Quiet (c : Course W) (p : Place W α (Listener σ α)) : Prop where
  heard : ∀ name v, c.Admits (p.note (.heard name v))
  spend : ∀ id i, c.Admits (p.adjust (·.adjustCallback id (·.spend i)))

theorem obey_carries (spend : ∀ id i, c.Admits (p.adjust (·.adjustCallback id (·.spend i))))
    {act act' : σ → Act W Unit} (k : ∀ s, allowed s → c.Carries (act s) (act' s)) (id : Nat) (v : α)
    (rules : List (Rule σ α)) (hr : ∀ r ∈ rules, ∀ s ∈ r.body, allowed s) (i : Nat) :
    c.Carries (obey p act id v i rules) (obey p act' id v i rules) := by
  -- On the rules that are left, of which the first has number `i`.
  induction rules generalizing i with
  | nil => exact fun w hw => .pure hw ()
  | cons r rest ih =>
    have further := ih (fun t ht => hr t (List.mem_cons_of_mem r ht)) (i + 1)
    simp only [Listener.obey]
    split
    · refine Carries.bind ?_ fun left => ?_
      · refine fun w hw => Place.carriesFrom_look ?_
        split
        · exact .pure hw _
        · exact ((spend id i).carries w hw).bind fun _ u _ hu => .pure hu _
      · split
        · exact Carries.bind (.forM fun s hs => k s (hr r List.mem_cons_self s hs)) fun _ => further
        · exact further
    · exact further

/-- Calling a listener stays on the course if its steps do, and if what a keeper does does. -/
theorem Quiet.hear (h : Quiet c p) {act act' : String → σ → Act W Unit}
    (k : ∀ name s, allowed s → c.Carries (act name s) (act' name s)) {copy : α → Act W Unit}
    {id : Nat} {l : Listener σ α} (hl : l.Within allowed) {v : α}
    (hk : ∀ skip, l = .keeper skip →
      c.Carries (Listener.hear p act copy id l v) (Listener.hear p act' copy id l v)) :
    c.Carries (Listener.hear p act copy id l v) (Listener.hear p act' copy id l v) := by
  cases l with
  | keeper skip => exact hk skip rfl
  | script name rules =>
    exact (h.heard name v).carries.bind fun _ => obey_carries h.spend (k name) id v rules hl 0

theorem Quiet.servedAt_at (h : Quiet c p) {id : Nat} {act act' : String → σ → Act W Unit}
    (k : ∀ name s, allowed s → c.Carries (act name s) (act' name s)) {copy : α → Act W Unit}
    (note : p.QuiescentAt c id)
    (within : ∀ w, c.sound w → ∀ l, (p.cell w).callback? id = some l → l.Within allowed)
    (keeps : ∀ w, c.sound w → ∀ skip, (p.cell w).callback? id = some (.keeper skip) → ∀ v,
      c.Carries (Listener.hear p act copy id (.keeper skip) v)
        (Listener.hear p act' copy id (.keeper skip) v)) :
    p.ServedAt c id (Listener.hear p act copy) (Listener.hear p act' copy) := by
  intro w hw l found pass v
  refine h.hear k (within w hw l found) (fun skip hl => ?_) _
    (note (.called pass id v) rfl nofun w hw).1
  subst hl
  exact keeps w hw skip found v

theorem Quiet.servedAt (h : Quiet c p) {id : Nat} {act act' : String → σ → Act W Unit}
    (k : ∀ name s, allowed s → c.Carries (act name s) (act' name s)) {copy : α → Act W Unit}
    (note : p.Quiescent c)
    (within : ∀ w, c.sound w → ∀ l, (p.cell w).callback? id = some l → l.Within allowed)
    (keeps : ∀ w, c.sound w → ∀ skip, (p.cell w).callback? id = some (.keeper skip) → ∀ v,
      c.Carries (Listener.hear p act copy id (.keeper skip) v)
        (Listener.hear p act' copy id (.keeper skip) v)) :
    p.ServedAt c id (Listener.hear p act copy) (Listener.hear p act' copy) :=
  h.servedAt_at k (note.at_ id) within keeps

/-- A place stays on a course that does not watch it at all. -/
theorem steady_of_admits {act act' : String → σ → Act W Unit} {copy : α → Act W Unit}
    (adjust : ∀ f, c.Admits (p.adjust f)) (note : ∀ o, c.Admits (p.note o))
    (k : ∀ name s, allowed s → c.Carries (act name s) (act' name s))
    (within : ∀ w, c.sound w → ∀ id l, (p.cell w).callback? id = some l → l.Within allowed)
    (copies : ∀ v, c.Carries (copy v) (copy v)) :
    p.Steady c (Within allowed) (Listener.hear p act copy) (Listener.hear p act' copy) := by
  have unwatched : p.Unwatched c := ⟨fun _ => adjust _, fun _ => adjust _, fun _ => adjust _, note⟩
  -- It remains to look at the callbacks, where a script does nothing to the place but note.
  refine unwatched.steady (fun id => ?_) (fun _ _ => adjust _) fun _ _ =>
    Place.borrowing_carries (adjust _) (adjust _)
  refine Quiet.servedAt ⟨fun _ _ => note _, fun _ _ => adjust _⟩ k unwatched.quiescent
    (fun w hw => within w hw id) fun _ _ skip _ v => ?_
  cases skip with
  | true => exact (adjust _).carries
  | false => exact copies v

end Listener

namespace Observable.Action

variable {p : Place W α (Listener σ α)} {allowed : σ → Prop}

def steps : Action σ α → List σ
  | .update _ _ inner | .replaceWith _ _ inner | .borrow inner => inner
  | .subscribe _ rules => rules.flatMap (·.body)
  | .get | .version | .describe _ | .set _ => []

def Within (allowed : σ → Prop) (action : Action σ α) : Prop := ∀ s ∈ action.steps, allowed s

theorem Within.script {name : String} {rules : List (Rule σ α)}
    (h : (subscribe name rules).Within allowed) : (Listener.script name rules).IsScript allowed :=
  ⟨fun r hr s hs => h s (List.mem_flatMap.2 ⟨r, hr, hs⟩), by simp⟩

variable [Text.Describe α]

theorem perform_carries {nested nested' : Nested W σ} {copy : α → Act W Unit}
    {enrol : String → Nat → W → W} (hn : Nested.Carried c allowed nested nested')
    (hp : p.Steady c (Listener.IsScript allowed) (Listener.hear p nested.act copy)
      (Listener.hear p nested'.act copy))
    (he : ∀ name w, c.sound w → ∀ rules id w',
      (p.subscribe (Listener.hear p nested.act copy) (.script name rules)).perform w =
        (.ok id, w') → c.sound w' →
          c.sound (enrol name id w') ∧ c.leads false w' (enrol name id w'))
    (action : Action σ α) (ha : action.Within allowed) :
    c.Carries (action.perform p nested copy enrol) (action.perform p nested' copy enrol) := by
  have inside (inner : List σ) (hi : ∀ s ∈ inner, allowed s) :
      c.Carries (inner.forM nested.inside) (inner.forM nested'.inside) :=
    .forM fun s hs => hn.inside s (hi s hs)
  cases action with
  | get | version => exact fun w hw => (Place.look_carries _ w hw).map _
  | describe pretty => exact fun w hw => Place.carriesFrom_look (.pure hw _)
  | set v => exact (hp.set v).bind fun _ w hw => .pure hw _
  | update f faulty inner | replaceWith f faulty inner =>
    exact (hp.update f faulty (inside inner ha)).bind fun _ w hw => .pure hw _
  | borrow inner => exact fun w hw => (hp.borrowing _ _ (inside inner ha) w hw).map _
  | subscribe name rules =>
    refine fun w hw => (hp.subscribe _ ha.script w hw).bind fun id v ran hv => ?_
    -- The subscription gets its name after its first call.
    have kept := he name w hw rules id v ran hv
    exact (CarriesFrom.modify kept.1 kept.2).bind fun _ u _ hu => .pure hu _

end Observable.Action

theorem Subscription.Request.perform_carries {p : Place W α κ} {id : Nat} {forget : W → W}
    (hu : c.Carries (p.unsubscribe id) (p.unsubscribe id)) (hf : c.Admits forget)
    (request : Subscription.Request) :
    c.Carries (request.perform p id forget) (request.perform p id forget) := by
  cases request with
  | unsubscribe => exact hu.bind fun _ w hw => .pure hw _
  | isActive => exact fun w hw => (Place.look_carries _ w hw).map _
  | describe pretty => exact fun w hw => Place.carriesFrom_look (.pure hw _)
  | forget => exact hf.carries.bind fun _ w hw => .pure hw _

theorem Subscription.Request.perform_carries_of_admits {p : Place W α κ} {forget : W → W}
    (adjust : ∀ f, c.Admits (p.adjust f)) (note : ∀ o, c.Admits (p.note o))
    (hf : c.Admits forget) (id : Nat) (request : Subscription.Request) :
    c.Carries (request.perform p id forget) (request.perform p id forget) :=
  perform_carries (Place.unsubscribe_carries (fun o _ => note o) (adjust (·.silence id))
    (adjust (·.delist id))) hf request

end LiveState
