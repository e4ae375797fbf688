import LiveState.Proofs.Course

/-! # Actions in accord

Two actions are done side by side, in worlds that need not be the same but are related.  They are
in *accord* if they end alike and leave related worlds.  Whether they are is put together from their
parts, as for courses.

The relation need not see everything.  An action that does nothing it sees may be done on one side
alone, and may even panic there, if somebody catches the panic.
-/

namespace LiveState

variable {W α β : Type} {R : W → W → Prop} {w w' : W}

namespace Act

structure AccordFrom (R : W → W → Prop) (w w' : W) (m m' : Act W α) : Prop where
  ending : (m.perform w).1 = (m'.perform w').1
  related : R (m.perform w).2 (m'.perform w').2

/-- From all related worlds both actions end alike, in related worlds. -/
def Accord (R : W → W → Prop) (m m' : Act W α) : Prop := ∀ w w', R w w' → AccordFrom R w w' m m'

/-! ## Both sides -/

theorem AccordFrom.pure (h : R w w') (a : α) :
    AccordFrom R w w' (Pure.pure a) (Pure.pure a) :=
  ⟨rfl, h⟩

theorem AccordFrom.panic (h : R w w') : AccordFrom R w w' (Act.panic : Act W α) Act.panic :=
  ⟨rfl, h⟩

theorem AccordFrom.modify {f f' : W → W} (h : R (f w) (f' w')) :
    AccordFrom R w w' (modify f : Act W Unit) (modify f') :=
  ⟨rfl, h⟩

theorem accord_modify {f f' : W → W} (h : ∀ w w', R w w' → R (f w) (f' w')) :
    Accord R (modify f : Act W Unit) (modify f') :=
  fun w w' hw => .modify (h w w' hw)

theorem AccordFrom.of_perform {u u' : W} {m m' k k' : Act W α} (h : AccordFrom R u u' k k')
    (hm : m.perform w = k.perform u) (hm' : m'.perform w' = k'.perform u') :
    AccordFrom R w w' m m' := by
  constructor
  · rw [hm, hm', h.ending]
  · rw [hm, hm']
    exact h.related

theorem AccordFrom.bind {m m' : Act W α} {f f' : α → Act W β} (h : AccordFrom R w w' m m')
    (k : ∀ a v v', m.perform w = (.ok a, v) → m'.perform w' = (.ok a, v') → R v v' →
      AccordFrom R v v' (f a) (f' a)) : AccordFrom R w w' (m >>= f) (m' >>= f') := by
  -- Both are interrupted alike, and that is all, or the rest goes on from related worlds.
  obtain ⟨ending, related⟩ := h
  rcases ran : m.perform w with ⟨i | a, v⟩ <;> rcases ran' : m'.perform w' with ⟨j | b, v'⟩ <;>
    rw [ran, ran'] at ending related <;> cases ending
  · constructor <;> simp only [perform_bind, ran, ran']
    exact related
  · have rest := k a v v' ran ran' related
    constructor <;> simp only [perform_bind, ran, ran']
    · exact rest.ending
    · exact rest.related

theorem Accord.bind {m m' : Act W α} {f f' : α → Act W β} (h : Accord R m m')
    (k : ∀ a, Accord R (f a) (f' a)) : Accord R (m >>= f) (m' >>= f') :=
  fun w w' hw => (h w w' hw).bind fun a v v' _ _ hv => k a v v' hv

/-- Looking at what may be different on the other side. -/
theorem AccordFrom.look_apart {view view' : W → α} {f f' : α → Act W β}
    (h : AccordFrom R w w' (f (view w)) (f' (view' w'))) :
    AccordFrom R w w' (Act.view view >>= f) (Act.view view' >>= f') := by
  refine h.of_perform ?_ ?_
  · rw [perform_bind, perform_view]
  · rw [perform_bind, perform_view]

theorem AccordFrom.look {view : W → α} {f f' : α → Act W β} (same : view w = view w')
    (h : AccordFrom R w w' (f (view w)) (f' (view w))) :
    AccordFrom R w w' (Act.view view >>= f) (Act.view view >>= f') :=
  .look_apart (same ▸ h)

/-- A world is changed, and the answer is what was seen before. -/
theorem accordFrom_put {view : W → α} {f f' : W → W} (same : view w = view w')
    (h : R (f w) (f' w')) :
    AccordFrom R w w' (do let a ← Act.view view; modify f; return a)
      (do let a ← Act.view view; modify f'; return a) :=
  .look same ((AccordFrom.modify h).bind fun _ _ _ _ _ hv => .pure hv _)

theorem AccordFrom.map {m m' : Act W α} (h : AccordFrom R w w' m m') (f : α → β) :
    AccordFrom R w w' (f <$> m) (f <$> m') := by
  obtain ⟨ending, related⟩ := h
  constructor
  · rw [perform_map, perform_map, ending]
  · rw [perform_map, perform_map]
    exact related

theorem AccordFrom.view {f : W → α} (h : R w w') (same : f w = f w') :
    AccordFrom R w w' (Act.view f) (Act.view f) := by
  constructor
  · rw [perform_view, perform_view, same]
  · exact h

theorem AccordFrom.rescuing {m m' r r' : Act W Unit} (h : AccordFrom R w w' m m')
    (k : Accord R r r') : AccordFrom R w w' (Act.rescuing m r) (Act.rescuing m' r') := by
  obtain ⟨ending, related⟩ := h
  rcases ran : m.perform w with ⟨(_ | _) | _, v⟩ <;> rcases ran' : m'.perform w' with ⟨_, v'⟩ <;>
    rw [ran, ran'] at ending related <;> cases ending
  -- Only a panic is caught, on both sides; every other end stays.
  case error.panic =>
    have rest := k v v' related
    constructor <;> simp only [perform_rescuing, ran, ran']
    · exact rest.ending
    · exact rest.related
  all_goals constructor <;> simp only [perform_rescuing, ran, ran']
  all_goals exact related

theorem AccordFrom.bracket {before after : W → W} {m m' : Act W α}
    (h : AccordFrom R (before w) (before w') m m')
    (ha : ∀ v v', R v v' → R (after v) (after v')) :
    AccordFrom R w w' (Act.bracket before after m) (Act.bracket before after m') := by
  obtain ⟨ending, related⟩ := h
  constructor <;> simp only [perform_bracket]
  · exact ending
  · exact ha _ _ related

theorem Accord.forM {σ : Type} {f f' : σ → Act W Unit} {l : List σ}
    (h : ∀ s ∈ l, Accord R (f s) (f' s)) : Accord R (l.forM f) (l.forM f') := by
  induction l with
  | nil => exact fun w w' hw => .pure hw ()
  | cons s rest ih =>
    show Accord R (f s >>= fun _ => rest.forM f) (f' s >>= fun _ => rest.forM f')
    exact (h s List.mem_cons_self).bind fun _ => ih fun t ht => h t (List.mem_cons_of_mem s ht)

/-! ## One side -/

/-- The relation does not see this change of a world. -/
def Unseen (R : W → W → Prop) (f : W → W) : Prop := ∀ w w', R w w' → R (f w) w'

/-- The relation does not see what an action does, wherever it stops; and it is not cut short. -/
def Aside (R : W → W → Prop) (m : Act W α) : Prop :=
  ∀ w w', R w w' → isExhausted (m.perform w).1 = false ∧ R (m.perform w).2 w'

theorem aside_pure (a : α) : Aside R (pure a) := fun _ _ hw => ⟨rfl, hw⟩

theorem aside_panic : Aside R (Act.panic : Act W α) := fun _ _ hw => ⟨rfl, hw⟩

theorem Unseen.aside {f : W → W} (h : Unseen R f) : Aside R (modify f : Act W Unit) :=
  fun w w' hw => ⟨rfl, h w w' hw⟩

theorem Aside.bind {m : Act W α} {f : α → Act W β} (h : Aside R m) (k : ∀ a, Aside R (f a)) :
    Aside R (m >>= f) := by
  intro w w' hw
  have first := h w w' hw
  rw [perform_bind]
  rcases ran : m.perform w with ⟨i | a, v⟩ <;> rw [ran] at first
  · cases i with
    | panic => exact ⟨rfl, first.2⟩
    | exhausted => cases first.1
  · exact k a v w' first.2

theorem Aside.map {m : Act W α} (h : Aside R m) (f : α → β) : Aside R (f <$> m) := by
  rw [map_eq_pure_bind]
  exact h.bind fun _ => aside_pure _

theorem Aside.look {view : W → α} {f : α → Act W β} (h : ∀ a, Aside R (f a)) :
    Aside R (Act.view view >>= f) := by
  intro w w' hw
  rw [perform_bind, perform_view]
  exact h _ w w' hw

/-- Whether or not an action panics that is not seen, who catches the panic ends the same way. -/
theorem Aside.rescuing {m : Act W Unit} {f g : W → W} (h : Aside R m) (hf : Unseen R f)
    (hg : Unseen R g) (hw : R w w') :
    ((Act.rescuing (do m; modify f) (modify g)).perform w).1 = .ok () ∧
      R ((Act.rescuing (do m; modify f) (modify g)).perform w).2 w' := by
  have first := h w w' hw
  rw [perform_rescuing, perform_bind]
  rcases ran : m.perform w with ⟨(_ | _) | _, v⟩ <;> rw [ran] at first
  · exact ⟨rfl, hg v w' first.2⟩
  · cases first.1
  · exact ⟨rfl, hf v w' first.2⟩

/-- Two actions that are not seen are in accord, once their panics are caught. -/
theorem Aside.accord (symm : ∀ w w', R w w' → R w' w) {m m' : Act W Unit} {f g : W → W}
    (h : Aside R m) (h' : Aside R m') (hf : Unseen R f) (hg : Unseen R g) :
    Accord R (Act.rescuing (do m; modify f) (modify g))
      (Act.rescuing (do m'; modify f) (modify g)) := by
  intro w w' hw
  obtain ⟨ending, related⟩ := h.rescuing hf hg hw
  obtain ⟨ending', related'⟩ := h'.rescuing hf hg (symm _ _ related)
  exact ⟨ending.trans ending'.symm, symm _ _ related'⟩

end Act

/-! ## Steps -/

open Act

variable {σ ρ ε : Type} {allowed : σ → Prop}

structure Nested.Accord (R : W → W → Prop) (allowed : σ → Prop) (nested nested' : Nested W σ) :
    Prop where
  act : ∀ name s, allowed s → Act.Accord R (nested.act name s) (nested'.act name s)
  inside : ∀ s, allowed s → Act.Accord R (nested.inside s) (nested'.inside s)

namespace Language

/-- Two languages are in accord: their lines in the journal keep related worlds related, and their
    steps are in accord as long as the steps that these set off are. -/
structure Accord (R : W → W → Prop) (allowed : σ → Prop) (L L' : Language W σ ρ ε) : Prop where
  began : ∀ s w w', R w w' → R (L.record (.began s) w) (L'.record (.began s) w')
  did : ∀ name s r w w', R w w' → R (L.record (.did name s r) w) (L'.record (.did name s r) w')
  inner : ∀ s r w w', R w w' → R (L.record (.inner s r) w) (L'.record (.inner s r) w')
  perform : ∀ nested nested' s, Nested.Accord R allowed nested nested' → allowed s →
    Act.Accord R (L.perform nested s) (L'.perform nested' s)

variable {L L' : Language W σ ρ ε}

theorem Accord.nested (h : Accord R allowed L L') {exec exec' : σ → Act W ρ}
    (k : ∀ s, allowed s → Act.Accord R (exec s) (exec' s)) :
    Nested.Accord R allowed (L.nested exec) (L'.nested exec') where
  act name s hs := (k s hs).bind fun r => accord_modify (h.did name s r)
  inside s hs := (k s hs).bind fun r => accord_modify (h.inner s r)

/-- A step and all that it sets off are in accord with the same budget. -/
theorem Accord.exec (h : Accord R allowed L L') (budget : Nat) :
    ∀ s, allowed s → Act.Accord R (L.exec budget s) (L'.exec budget s) := by
  -- By induction on the budget: what a step sets off has a smaller one.
  induction budget with
  | zero => exact fun s _ w w' hw => ⟨rfl, hw⟩
  | succ budget ih =>
    intro s hs w w' hw
    refine (AccordFrom.modify (h.began s w w' hw)).bind fun _ v v' _ _ hv => ?_
    exact h.perform _ _ s (h.nested ih) hs v v' hv

theorem run_cons_accord {w w' : W} {budget : Nat} {s s' : σ} {rest rest' : List σ}
    (first : AccordFrom R w w' (L.exec budget s) (L'.exec budget s'))
    (further : ∀ v v', R v v' →
      (L.run budget rest v).1.map (·.ending) = (L'.run budget rest' v').1.map (·.ending) ∧
        R (L.run budget rest v).2 (L'.run budget rest' v').2) :
    (L.run budget (s :: rest) w).1.map (·.ending) =
        (L'.run budget (s' :: rest') w').1.map (·.ending) ∧
      R (L.run budget (s :: rest) w).2 (L'.run budget (s' :: rest') w').2 := by
  obtain ⟨endings, related⟩ := further _ _ first.related
  exact ⟨List.cons_eq_cons.2 ⟨first.ending, endings⟩, related⟩

/-- A run of allowed steps is in accord: all steps end alike, in related worlds. -/
theorem Accord.run (h : Accord R allowed L L') (budget : Nat) {steps : List σ}
    (hs : ∀ s ∈ steps, allowed s) {w w' : W} (hw : R w w') :
    (L.run budget steps w).1.map (·.ending) = (L'.run budget steps w').1.map (·.ending) ∧
      R (L.run budget steps w).2 (L'.run budget steps w').2 := by
  induction steps generalizing w w' with
  | nil => exact ⟨rfl, hw⟩
  | cons s rest ih =>
    exact run_cons_accord (h.exec budget s (hs s List.mem_cons_self) w w' hw) fun v v' hv =>
      ih (fun t ht => hs t (List.mem_cons_of_mem s ht)) hv

end Language

end LiveState
