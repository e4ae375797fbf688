import Mathlib.Algebra.GroupWithZero.Nat
import LiveState.Proofs.Course

/-! # Budgets

A world has *spent* a step when the step has begun, and it has *funds* for the steps that the rules
of its scripts may still set off.  What is spent and what is still to be spent stay within a limit
together, so that the budget of a run is never used up.
-/

namespace LiveState

variable {W α β σ ρ ε : Type}

/-- How the steps in a world are counted. -/
structure Account (W : Type) where
  /-- The steps that have begun. -/
  spent : W → Nat
  /-- The steps that the rules of scripts may still set off. -/
  funds : W → Nat
  /-- Nothing but rules sets off steps on its own. -/
  fair : W → Prop
  /-- What never changes about the scripts. -/
  keeps : W → W → Prop
  refl : ∀ w, keeps w w
  trans : ∀ {u v w : W}, keeps u v → keeps v w → keeps u w
  remains : ∀ {v w : W}, keeps v w → fair v → fair w

namespace Account

variable {a : Account W} {limit floor reserve cost : Nat}

/-- At least `floor` steps have been spent, and `reserve` more are left to spend within the
    limit.  No budget is used up. -/
def course (a : Account W) (limit floor reserve : Nat) : Course W where
  sound w := a.fair w ∧ a.spent w + a.funds w + reserve ≤ limit ∧ floor ≤ a.spent w
  leads b w w' := b = false ∧ a.keeps w w'
  refl w := ⟨rfl, a.refl w⟩
  trans := by
    rintro u v w b b' ⟨rfl, h⟩ ⟨rfl, k⟩
    exact ⟨rfl, a.trans h k⟩

theorem weaken {w : W} {m m' : Act W α} {reserve' floor' : Nat}
    (h : (a.course limit floor reserve).CarriesFrom w m m') (hr : reserve' ≤ reserve)
    (hf : floor' ≤ floor) : (a.course limit floor' reserve').CarriesFrom w m m' := by
  obtain ⟨same, ⟨fair, within, above⟩, leads⟩ := h
  exact ⟨same, ⟨fair, by omega, by omega⟩, leads⟩

theorem spare {w : W} (hw : (a.course limit floor (cost + reserve)).sound w) :
    (a.course limit floor reserve).sound w := by
  obtain ⟨fair, within, above⟩ := hw
  exact ⟨fair, by omega, above⟩

/-- The action spends at most `cost` steps, whatever reserve is to be kept, and the other action
    does the same. -/
def Affords (a : Account W) (limit floor cost : Nat) (m m' : Act W α) : Prop :=
  ∀ reserve w, (a.course limit floor (cost + reserve)).sound w →
    (a.course limit floor reserve).CarriesFrom w m m'

namespace Affords

theorem free {m m' : Act W α}
    (h : ∀ reserve, (a.course limit floor reserve).Carries m m') :
    a.Affords limit floor 0 m m' :=
  fun reserve w hw => h reserve w (by simpa using hw)

theorem carries {m m' : Act W α} (h : a.Affords limit floor 0 m m') (reserve : Nat) :
    (a.course limit floor reserve).Carries m m' :=
  fun w hw => h reserve w (by simpa using hw)

theorem pure (x : α) : a.Affords limit floor cost (Pure.pure x) (Pure.pure x) :=
  fun _ _ hw => .pure (spare hw) x

theorem look {view : W → α} {f f' : α → Act W β}
    (k : ∀ x, a.Affords limit floor cost (f x) (f' x)) :
    a.Affords limit floor cost (Act.view view >>= f) (Act.view view >>= f') :=
  fun reserve w hw => .look (k _ reserve w hw)

theorem map {m m' : Act W α} (h : a.Affords limit floor cost m m') (f : α → β) :
    a.Affords limit floor cost (f <$> m) (f <$> m') :=
  fun reserve w hw => (h reserve w hw).map f

theorem bind {m m' : Act W α} {f f' : α → Act W β} {further : Nat}
    (h : a.Affords limit floor cost m m') (k : ∀ x, a.Affords limit floor further (f x) (f' x)) :
    a.Affords limit floor (cost + further) (m >>= f) (m' >>= f') := by
  intro reserve w hw
  rw [Nat.add_assoc] at hw
  have first := h (further + reserve) w hw
  -- The first action leaves a reserve from which the second one is paid.
  refine (weaken first (Nat.le_add_left _ _) (Nat.le_refl _)).bind fun x v ran _ => ?_
  have sound := first.sound
  rw [ran] at sound
  exact k x reserve v sound

theorem andThen {m m' : Act W α} {f f' : α → Act W β} (h : a.Affords limit floor cost m m')
    (k : ∀ x, a.Affords limit floor 0 (f x) (f' x)) :
    a.Affords limit floor cost (m >>= f) (m' >>= f') :=
  h.bind k

theorem forM {weight : σ → Nat} {f f' : σ → Act W Unit}
    (h : ∀ s, a.Affords limit floor (weight s) (f s) (f' s)) (l : List σ) :
    a.Affords limit floor (l.map weight).sum (l.forM f) (l.forM f') := by
  induction l with
  | nil => exact .free fun _ w hw => .pure hw ()
  | cons s rest ih =>
    rw [List.map_cons, List.sum_cons]
    exact (h s).bind fun _ => ih

end Affords

end Account

/-! ## Languages -/

/-- Whether an event is the beginning of a step. -/
def Event.isBegan : Event σ ρ ε → Bool
  | .began _ => true
  | .did _ _ _ | .inner _ _ | .happened _ => false

theorem countP_isBegan_push (journal : Array (Event σ ρ ε)) (e : Event σ ρ ε) :
    (journal.push e).toList.countP Event.isBegan =
      journal.toList.countP Event.isBegan + if e.isBegan then 1 else 0 := by
  simp [List.countP_append, List.countP_cons]

/-- However steps are weighed one by one, what they weigh together is the sum of their weights. -/
theorem eq_sum_map {weight : σ → Nat} {weigh : List σ → Nat} (none : weigh [] = 0)
    (one : ∀ s rest, weigh (s :: rest) = weight s + weigh rest) (steps : List σ) :
    weigh steps = (steps.map weight).sum := by
  induction steps with
  | nil => simp [none]
  | cons s rest ih => simp [one, ih]

/-- Steps can be paid from their weights: one for beginning, and the rest for what they set off. -/
structure Language.Accounted (L : Language W σ ρ ε) (a : Account W) (weight : σ → Nat) :
    Prop where
  positive : ∀ s, 0 < weight s
  began_spent : ∀ s w, a.spent (L.record (.began s) w) = a.spent w + 1
  did_spent : ∀ name s r w, a.spent (L.record (.did name s r) w) = a.spent w
  inner_spent : ∀ s r w, a.spent (L.record (.inner s r) w) = a.spent w
  funds : ∀ e w, a.funds (L.record e w) = a.funds w
  keeps : ∀ e w, a.keeps w (L.record e w)
  perform : ∀ limit floor nested nested' s,
    (∀ name t, a.Affords limit floor (weight t) (nested.act name t) (nested'.act name t)) →
    (∀ t, a.Affords limit floor (weight t) (nested.inside t) (nested'.inside t)) →
    a.Affords limit floor (weight s - 1) (L.perform nested s) (L.perform nested' s)

namespace Language.Accounted

variable {L : Language W σ ρ ε} {a : Account W} {weight : σ → Nat}

theorem record_carries (h : L.Accounted a weight) {e : Event σ ρ ε}
    (he : ∀ w, a.spent (L.record e w) = a.spent w) (limit floor reserve : Nat) :
    (a.course limit floor reserve).Carries (modify (L.record e) : Act W Unit)
      (modify (L.record e)) := by
  rintro w ⟨fair, within, above⟩
  refine .modify ⟨a.remains (h.keeps e w) fair, ?_, ?_⟩ ⟨rfl, h.keeps e w⟩
  · rw [he, h.funds]
    exact within
  · rw [he]
    exact above

/-- A step with a budget up to the limit spends at most its weight, and a larger budget makes no
    difference to it. -/
theorem exec (h : L.Accounted a weight) {limit : Nat} (budget extra : Nat) :
    ∀ floor, limit ≤ budget + floor →
      ∀ s, a.Affords limit floor (weight s) (L.exec budget s) (L.exec (budget + extra) s) := by
  induction budget with
  | zero =>
    rintro floor hb s reserve w ⟨-, within, above⟩
    -- There is no budget left, but also nothing to pay the step from.
    have := h.positive s
    omega
  | succ budget ih =>
    rintro floor hb s reserve w ⟨fair, within, above⟩
    rw [Nat.succ_add]
    have positive := h.positive s
    -- Beginning is one of the steps that the weight pays for, and it raises the floor.
    have began : (a.course limit (floor + 1) (weight s - 1 + reserve)).sound
        (L.record (.began s) w) := by
      refine ⟨a.remains (h.keeps _ w) fair, ?_, ?_⟩
      · rw [h.began_spent, h.funds]
        omega
      · rw [h.began_spent]
        omega
    have inner := ih (floor + 1) (by omega)
    have step := h.perform limit (floor + 1) (L.nested (L.exec budget))
      (L.nested (L.exec (budget + extra))) s
      (fun name t => (inner t).andThen fun r =>
        .free (h.record_carries (h.did_spent name t r) _ _))
      (fun t => (inner t).andThen fun r => .free (h.record_carries (h.inner_spent t r) _ _))
      reserve _ began
    obtain ⟨same, sound, leads⟩ := Account.weaken step (Nat.le_refl _) (Nat.le_succ floor)
    exact ⟨same, sound, leads.1, a.trans (h.keeps _ w) leads.2⟩

/-- No budget is used up that is as large as what the step and the rules may cost. -/
theorem exec_whole (h : L.Accounted a weight) {w : W} (fair : a.fair w) {budget : Nat} {s : σ}
    (enough : a.funds w + weight s ≤ budget) :
    Act.isExhausted ((L.exec budget s).perform w).1 = false := by
  have paid : a.Affords (budget + a.spent w) (a.spent w) (weight s) (L.exec budget s)
      (L.exec (budget + 0) s) := h.exec budget 0 _ (Nat.le_refl _) s
  exact (paid 0 w ⟨fair, by omega, Nat.le_refl _⟩).leads.1

/-- A run with a budget up to the limit uses no budget up, a larger budget makes no difference to
    it, and what it spends, with what the rules may still cost, is within the limit. -/
theorem run (h : L.Accounted a weight) (extra : Nat) {limit budget : Nat} {steps : List σ} {w : W}
    (fair : a.fair w) (hb : limit ≤ budget + a.spent w)
    (hw : a.spent w + a.funds w + (steps.map weight).sum ≤ limit) :
    (∀ o ∈ (L.run budget steps w).1, Act.isExhausted o.ending = false) ∧
      L.run (budget + extra) steps w = L.run budget steps w ∧
      a.spent (L.run budget steps w).2 + a.funds (L.run budget steps w).2 ≤ limit := by
  induction steps generalizing w with
  | nil => exact ⟨by simp [Language.run], rfl, by simpa [Language.run] using hw⟩
  | cons s rest ih =>
    rw [List.map_cons, List.sum_cons] at hw
    -- The weights of the steps that follow are the reserve of the first one.
    obtain ⟨same, ⟨fair, within, above⟩, whole, -⟩ :=
      h.exec budget extra (a.spent w) hb s (rest.map weight).sum w ⟨fair, hw, Nat.le_refl _⟩
    obtain ⟨wholes, sames, ends⟩ := ih (w := (L.runStep budget s w).2) fair
      (Nat.le_trans hb (Nat.add_le_add_left above budget)) within
    refine ⟨fun o ho => ?_, ?_, ends⟩
    · rcases List.mem_cons.1 ho with rfl | ho
      · exact whole
      · exact wholes o ho
    · have first : L.runStep (budget + extra) s w = L.runStep budget s w := by
        rw [runStep_eq, runStep_eq, same]
      simp only [Language.run, first, sames]

end Language.Accounted

end LiveState
