import LiveState.Scenario

/-! # Courses of actions

A *course* says how a world may develop: what is true of it between actions, and what lies
between two of its states.  Whether an action stays on a course is put together from its parts.

Two actions are compared at once, one of which may look more closely than the other.  In this way
`Language.Throughout` can say that something is true whenever a step begins, at whatever depth:
refusing all other steps changes nothing.
-/

namespace LiveState

variable {W α β : Type}

/-- Whether an action was cut short because the step budget was used up. -/
def Act.isExhausted : Except Interrupt α → Bool
  | .ok _ | .error .panic => false
  | .error .exhausted => true

theorem Act.perform_map (f : α → β) (m : Act W α) (w : W) :
    (f <$> m).perform w = ((m.perform w).1.map f, (m.perform w).2) := by
  rw [map_eq_pure_bind, Act.perform_bind]
  rcases m.perform w with ⟨_ | _, _⟩ <;> rfl

theorem Act.perform_bind_of_ok {m : Act W α} {f : α → Act W β} {w v : W} {a : α}
    (h : m.perform w = (.ok a, v)) : (m >>= f).perform w = (f a).perform v := by
  rw [Act.perform_bind, h]

theorem Act.perform_bind_of_eq {m m' : Act W α} {f : α → Act W β} {w w' : W}
    (h : m.perform w = m'.perform w') : (m >>= f).perform w = (m' >>= f).perform w' := by
  rw [Act.perform_bind, Act.perform_bind, h]

theorem Act.perform_bind_ok {m : Act W α} {f : α → Act W β} {w w' : W} {b : β}
    (h : (m >>= f).perform w = (.ok b, w')) :
    ∃ a v, m.perform w = (.ok a, v) ∧ (f a).perform v = (.ok b, w') := by
  rw [Act.perform_bind] at h
  rcases ran : m.perform w with ⟨i | a, v⟩
  · rw [ran] at h
    cases h
  · rw [ran] at h
    exact ⟨a, v, rfl, h⟩

theorem Act.isExhausted_map (f : α → β) (e : Except Interrupt α) :
    Act.isExhausted (e.map f) = Act.isExhausted e := by
  rcases e with (_ | _) | _ <;> rfl

theorem Act.ok_of_whole {e : Except Interrupt Unit} (calm : e ≠ .error .panic)
    (whole : Act.isExhausted e = false) : e = .ok () := by
  rcases e with (_ | _) | _
  · exact absurd rfl calm
  · cases whole
  · rfl

/-- How a world may develop. -/
structure Course (W : Type) where
  /-- What is true of the world between actions. -/
  sound : W → Prop
  /-- What lies between two states; the mark says that a budget was used up meanwhile. -/
  leads : Bool → W → W → Prop
  refl : ∀ w, leads false w w
  trans : ∀ {u v w : W} {b b' : Bool}, leads b u v → leads b' v w → leads (b || b') u w

namespace Course

/-- The course on which nothing is asked but an invariant. -/
def invariant (sound : W → Prop) : Course W where
  sound := sound
  leads _ _ _ := True
  refl _ := trivial
  trans _ _ := trivial

/-- The course on which nothing is asked but that `past` grows. -/
def growing {ε : Type} (past : W → List ε) : Course W where
  sound _ := True
  leads _ w w' := past w <+: past w'
  refl _ := List.prefix_refl _
  trans h k := h.trans k

variable {c : Course W}

/-- From `w` both actions do the same, and stay on the course. -/
structure CarriesFrom (c : Course W) (w : W) (m m' : Act W α) : Prop where
  same : m'.perform w = m.perform w
  sound : c.sound (m.perform w).2
  leads : c.leads (Act.isExhausted (m.perform w).1) w (m.perform w).2

/-- From every sound world both actions do the same, and stay on the course. -/
def Carries (c : Course W) (m m' : Act W α) : Prop := ∀ w, c.sound w → c.CarriesFrom w m m'

/-- A change of the world that stays on the course. -/
def Admits (c : Course W) (f : W → W) : Prop :=
  ∀ w, c.sound w → c.sound (f w) ∧ c.leads false w (f w)

theorem leads_trans {u v w : W} {b : Bool} (h : c.leads false u v) (k : c.leads b v w) :
    c.leads b u w := by
  simpa using c.trans h k

/-! ## Staying on a course -/

theorem CarriesFrom.pure {w : W} (h : c.sound w) (a : α) :
    c.CarriesFrom w (Pure.pure a) (Pure.pure a) :=
  ⟨rfl, h, c.refl w⟩

theorem CarriesFrom.panic {w : W} (h : c.sound w) :
    c.CarriesFrom w (Act.panic : Act W α) Act.panic :=
  ⟨rfl, h, c.refl w⟩

theorem CarriesFrom.modify {w : W} {f : W → W} (h : c.sound (f w)) (k : c.leads false w (f w)) :
    c.CarriesFrom w (modify f : Act W Unit) (modify f) :=
  ⟨rfl, h, k⟩

theorem Admits.carries {f : W → W} (h : c.Admits f) :
    c.Carries (modify f : Act W Unit) (modify f) :=
  fun w hw => .modify (h w hw).1 (h w hw).2

theorem Admits.comp {f g : W → W} (hg : c.Admits g) (hf : c.Admits f) :
    c.Admits fun w => g (f w) := by
  intro w hw
  obtain ⟨sound, leads⟩ := hf w hw
  obtain ⟨sound', leads'⟩ := hg (f w) sound
  exact ⟨sound', leads_trans leads leads'⟩

theorem CarriesFrom.bind {w : W} {m m' : Act W α} {f f' : α → Act W β}
    (h : c.CarriesFrom w m m')
    (k : ∀ a v, m.perform w = (.ok a, v) → c.sound v → c.CarriesFrom v (f a) (f' a)) :
    c.CarriesFrom w (m >>= f) (m' >>= f') := by
  -- Either the first action was interrupted, and that is all, or the rest goes on from `v`.
  obtain ⟨same, sound, leads⟩ := h
  rcases ran : m.perform w with ⟨i | a, v⟩
  · rw [ran] at same sound leads
    constructor <;> simp only [Act.perform_bind, same, ran]
    · exact sound
    · cases i <;> exact leads
  · rw [ran] at same sound leads
    have rest := k a v ran sound
    constructor <;> simp only [Act.perform_bind, same, ran]
    · exact rest.same
    · exact rest.sound
    · exact leads_trans leads rest.leads

theorem CarriesFrom.after {w u : W} {m m' k k' : Act W α} (h : c.CarriesFrom u k k')
    (hm : m.perform w = k.perform u) (hm' : m'.perform w = k'.perform u)
    (later : c.leads false w u) : c.CarriesFrom w m m' := by
  obtain ⟨same, sound, leads⟩ := h
  constructor
  · rw [hm, hm', same]
  · rwa [hm]
  · rw [hm]
    exact leads_trans later leads

theorem Carries.bind {m m' : Act W α} {f f' : α → Act W β} (h : c.Carries m m')
    (k : ∀ a, c.Carries (f a) (f' a)) : c.Carries (m >>= f) (m' >>= f') :=
  fun w hw => (h w hw).bind fun a v _ hv => k a v hv

theorem CarriesFrom.look {w : W} {view : W → α} {f f' : α → Act W β}
    (h : c.CarriesFrom w (f (view w)) (f' (view w))) :
    c.CarriesFrom w (Act.view view >>= f) (Act.view view >>= f') := by
  obtain ⟨same, sound, leads⟩ := h
  constructor <;> simpa only [Act.perform_bind, Act.perform_view]

theorem Carries.look {view : W → α} {f f' : α → Act W β}
    (h : ∀ w, c.sound w → c.CarriesFrom w (f (view w)) (f' (view w))) :
    c.Carries (Act.view view >>= f) (Act.view view >>= f') :=
  fun w hw => .look (h w hw)

theorem carries_view (view : W → α) : c.Carries (Act.view view) (Act.view view) :=
  fun w hw => ⟨rfl, hw, c.refl w⟩

theorem carries_pure (a : α) : c.Carries (pure a) (pure a) := fun _ hw => .pure hw a

theorem carries_panic : c.Carries (Act.panic : Act W α) Act.panic := fun _ hw => .panic hw

theorem CarriesFrom.map {w : W} {m m' : Act W α} (h : c.CarriesFrom w m m') (f : α → β) :
    c.CarriesFrom w (f <$> m) (f <$> m') := by
  obtain ⟨same, sound, leads⟩ := h
  constructor <;> simp only [Act.perform_map, Act.isExhausted_map, same]
  · exact sound
  · exact leads

theorem Carries.map {m m' : Act W α} (h : c.Carries m m') (f : α → β) :
    c.Carries (f <$> m) (f <$> m') := fun w hw => (h w hw).map f

theorem CarriesFrom.rescuing {w : W} {m m' r r' : Act W Unit} (h : c.CarriesFrom w m m')
    (k : ∀ v, m.perform w = (.error .panic, v) → c.sound v → c.CarriesFrom v r r') :
    c.CarriesFrom w (Act.rescuing m r) (Act.rescuing m' r') := by
  obtain ⟨same, sound, leads⟩ := h
  rcases ran : m.perform w with ⟨(_ | _) | _, v⟩ <;> rw [ran] at same sound leads
  -- Only a panic is caught; every other end is that of `m` itself.
  case error.panic =>
    have rest := k v ran sound
    constructor <;> simp only [Act.perform_rescuing, same, ran]
    · exact rest.same
    · exact rest.sound
    · exact leads_trans leads rest.leads
  all_goals constructor <;> simp only [Act.perform_rescuing, same, ran] <;> assumption

theorem CarriesFrom.bracket {w : W} {before after : W → W} {m m' : Act W α}
    (hb : c.leads false w (before w)) (h : c.CarriesFrom (before w) m m')
    (ha : ∀ v, c.sound v → c.sound (after v) ∧ c.leads false v (after v)) :
    c.CarriesFrom w (Act.bracket before after m) (Act.bracket before after m') := by
  obtain ⟨same, sound, leads⟩ := h
  constructor <;> simp only [Act.perform_bracket, same]
  · exact (ha _ sound).1
  · simpa using c.trans (leads_trans hb leads) (ha _ sound).2

theorem Carries.forM {σ : Type} {f f' : σ → Act W Unit} {l : List σ}
    (h : ∀ s ∈ l, c.Carries (f s) (f' s)) : c.Carries (l.forM f) (l.forM f') := by
  induction l with
  | nil => exact fun w hw => .pure hw ()
  | cons s rest ih =>
    show c.Carries (f s >>= fun _ => rest.forM f) (f' s >>= fun _ => rest.forM f')
    exact (h s List.mem_cons_self).bind fun _ => ih fun t ht => h t (List.mem_cons_of_mem s ht)

end Course

/-! ## More precise courses -/

namespace Course

variable {c : Course W} {Q : W → Prop}

/-- The same course, from where something is true that remains so. -/
def restrict (c : Course W) (Q : W → Prop) (_remains : ∀ b w w', c.leads b w w' → Q w → Q w') :
    Course W where
  sound w := c.sound w ∧ Q w
  leads b w w' := c.leads b w w' ∧ (Q w → Q w')
  refl w := ⟨c.refl w, id⟩
  trans h k := ⟨c.trans h.1 k.1, k.2 ∘ h.2⟩

variable {remains : ∀ b w w', c.leads b w w' → Q w → Q w'}

theorem Admits.restrict {f : W → W} (h : c.Admits f) : (c.restrict Q remains).Admits f := by
  rintro w ⟨hw, q⟩
  obtain ⟨sound, leads⟩ := h w hw
  exact ⟨⟨sound, remains _ _ _ leads q⟩, leads, remains _ _ _ leads⟩

theorem Carries.restrict {m m' : Act W α} (h : c.Carries m m') :
    (c.restrict Q remains).Carries m m' := by
  rintro w ⟨hw, q⟩
  obtain ⟨same, sound, leads⟩ := h w hw
  exact ⟨same, ⟨sound, remains _ _ _ leads q⟩, leads, remains _ _ _ leads⟩

theorem CarriesFrom.unrestrict {w : W} {m m' : Act W α}
    (h : (c.restrict Q remains).CarriesFrom w m m') : c.CarriesFrom w m m' :=
  ⟨h.same, h.sound.1, h.leads.1⟩

end Course

/-! ## Courses of whole runs -/

variable {σ ρ ε : Type}

/-- The steps that a step may set off stay on the course. -/
structure Nested.Carried (c : Course W) (allowed : σ → Prop) (nested nested' : Nested W σ) :
    Prop where
  act : ∀ name s, allowed s → c.Carries (nested.act name s) (nested'.act name s)
  inside : ∀ s, allowed s → c.Carries (nested.inside s) (nested'.inside s)

theorem Nested.Carried.restrict {c : Course W} {allowed : σ → Prop} {nested nested' : Nested W σ}
    {Q : W → Prop} {remains : ∀ b w w', c.leads b w w' → Q w → Q w'}
    (h : Nested.Carried c allowed nested nested') :
    Nested.Carried (c.restrict Q remains) allowed nested nested' :=
  ⟨fun name s hs => (h.act name s hs).restrict, fun s hs => (h.inside s hs).restrict⟩

namespace Language

open Classical in
/-- The language that refuses every step that begins in another world than `P` says. -/
noncomputable def guarded (L : Language W σ ρ ε) (P : W → Prop) : Language W σ ρ ε where
  journal := L.journal
  record := L.record
  perform nested s := do
    if ← Act.view fun w => decide (P w) then L.perform nested s else throw .exhausted

theorem perform_guarded {L : Language W σ ρ ε} {P : W → Prop} {w : W} (h : P w)
    (nested : Nested W σ) (s : σ) :
    ((L.guarded P).perform nested s).perform w = (L.perform nested s).perform w := by
  simp [guarded, Act.perform_bind, h]

/-- Whatever step begins in the course of a run, at whatever depth, it begins in a world as `P`
    says, and so the run ends. -/
def Throughout (L : Language W σ ρ ε) (P : W → Prop) (budget : Nat) (steps : List σ) (w : W) :
    Prop :=
  (L.guarded P).run budget steps w = L.run budget steps w ∧ P (L.run budget steps w).2

/-- Run steps inside another one, which leaves them a budget. -/
def runInside (L : Language W σ ρ ε) (budget : Nat) (inner : List σ) : Act W Unit :=
  inner.forM (L.nested (L.exec budget)).inside

/-- Whatever step begins while steps run inside another one, at whatever depth, it begins in a world
    as `P` says, and so they end. -/
def ThroughoutInside (L : Language W σ ρ ε) (P : W → Prop) (budget : Nat) (inner : List σ) (w : W) :
    Prop :=
  ((L.guarded P).runInside budget inner).perform w = (L.runInside budget inner).perform w ∧
    P ((L.runInside budget inner).perform w).2

/-- What a language has to do with a course if every step is followed from where it has begun. -/
structure Pursues (L : Language W σ ρ ε) (c : Course W) (allowed : σ → Prop) : Prop where
  /-- The budget may be used up anywhere. -/
  cut : ∀ w, c.sound w → c.leads true w w
  began : ∀ s, c.Admits (L.record (.began s))
  perform : ∀ exec exec' s, (∀ t, allowed t → c.Carries (exec t) (exec' t)) → allowed s →
    ∀ w, c.sound w → c.CarriesFrom (L.record (.began s) w) (L.perform (L.nested exec) s)
      (L.perform (L.nested exec') s)

/-- What a language has to do with a course: its own lines in the journal stay on it, and so does
    a step as long as the steps that it sets off do. -/
structure Heeds (L : Language W σ ρ ε) (c : Course W) (allowed : σ → Prop) : Prop where
  /-- The budget may be used up anywhere. -/
  cut : ∀ w, c.sound w → c.leads true w w
  began : ∀ s, c.Admits (L.record (.began s))
  did : ∀ name s r, c.Admits (L.record (.did name s r))
  inner : ∀ s r, c.Admits (L.record (.inner s r))
  perform : ∀ nested nested' s, Nested.Carried c allowed nested nested' → allowed s →
    c.Carries (L.perform nested s) (L.perform nested' s)

variable {L : Language W σ ρ ε} {c : Course W} {allowed : σ → Prop} {P : W → Prop}

/-- The steps that a step sets off stay on the course, if their lines in the journal do. -/
theorem nested_carried (did : ∀ name s r, c.Admits (L.record (.did name s r)))
    (inner : ∀ s r, c.Admits (L.record (.inner s r))) {exec exec' : σ → Act W ρ}
    (k : ∀ s, allowed s → c.Carries (exec s) (exec' s)) :
    Nested.Carried c allowed (L.nested exec) (L.nested exec') where
  act name s hs := (k s hs).bind fun r => (did name s r).carries
  inside s hs := (k s hs).bind fun r => (inner s r).carries

theorem Heeds.nested (h : L.Heeds c allowed) {exec exec' : σ → Act W ρ}
    (k : ∀ s, allowed s → c.Carries (exec s) (exec' s)) :
    Nested.Carried c allowed (L.nested exec) ((L.guarded P).nested exec') :=
  nested_carried h.did h.inner k

theorem Heeds.pursues (h : L.Heeds c allowed) : L.Pursues c allowed where
  cut := h.cut
  began := h.began
  perform _ _ s k hs w hw :=
    h.perform _ _ s (nested_carried h.did h.inner k) hs _ (h.began s w hw).1

/-- A step with a budget stays on the course, also if it looks whether `P` is true. -/
theorem Pursues.exec (h : L.Pursues c allowed) (hP : ∀ w, c.sound w → P w) (budget : Nat) :
    ∀ s, allowed s → c.Carries (L.exec budget s) ((L.guarded P).exec budget s) := by
  -- By induction on the budget: what a step sets off has a smaller one.
  induction budget with
  | zero => exact fun s _ w hw => ⟨rfl, hw, h.cut w hw⟩
  | succ budget ih =>
    intro s hs w hw
    refine ((h.began s).carries w hw).bind fun _ u ran hu => ?_
    cases ran
    obtain ⟨same, sound, leads⟩ := h.perform _ _ s ih hs w hw
    refine ⟨?_, sound, leads⟩
    -- The guard looks at the world in which the step has begun, which is sound.
    exact (perform_guarded (hP _ hu) _ s).trans same

theorem Heeds.exec (h : L.Heeds c allowed) (hP : ∀ w, c.sound w → P w) (budget : Nat) :
    ∀ s, allowed s → c.Carries (L.exec budget s) ((L.guarded P).exec budget s) :=
  h.pursues.exec hP budget

theorem runStep_eq (budget : Nat) (s : σ) (w : W) :
    L.runStep budget s w =
      (⟨((L.exec budget s).perform w).1,
        ((L.journal ((L.exec budget s).perform w).2).extract (L.journal w).size).toList⟩,
      ((L.exec budget s).perform w).2) := rfl

theorem run_append (budget : Nat) (first second : List σ) (w : W) :
    L.run budget (first ++ second) w =
      ((L.run budget first w).1 ++ (L.run budget second (L.run budget first w).2).1,
        (L.run budget second (L.run budget first w).2).2) := by
  induction first generalizing w with
  | nil => rfl
  | cons s rest ih =>
    simp only [List.cons_append, run, ih]

/-- A run stays on the course, and so it does step by step. -/
theorem Pursues.run (h : L.Pursues c allowed) (hP : ∀ w, c.sound w → P w) (budget : Nat)
    {steps : List σ} (hs : ∀ s ∈ steps, allowed s) {w : W} (hw : c.sound w) :
    (L.guarded P).run budget steps w = L.run budget steps w ∧
      c.sound (L.run budget steps w).2 ∧
      ∃ b, c.leads b w (L.run budget steps w).2 ∧
        (b = true → ∃ o ∈ (L.run budget steps w).1, Act.isExhausted o.ending = true) := by
  induction steps generalizing w with
  | nil => exact ⟨rfl, hw, false, c.refl w, by simp⟩
  | cons s rest ih =>
    obtain ⟨same, sound, leads⟩ := h.exec hP budget s (hs s List.mem_cons_self) w hw
    obtain ⟨rests, ends, b, further, used⟩ :=
      ih (fun t ht => hs t (List.mem_cons_of_mem s ht)) sound
    refine ⟨?_, ends, _, c.trans leads further, fun hb => ?_⟩
    · simp only [Language.run, runStep_eq, same]
      exact congrArg (fun r => (_ :: r.1, r.2)) rests
    -- The budget was used up either in this step or in a later one.
    · rcases Bool.or_eq_true_iff.1 hb with hb | hb
      · exact ⟨_, List.mem_cons_self, hb⟩
      · obtain ⟨o, ho, hb⟩ := used hb
        exact ⟨o, List.mem_cons_of_mem _ ho, hb⟩

theorem Heeds.run (h : L.Heeds c allowed) (hP : ∀ w, c.sound w → P w) (budget : Nat)
    {steps : List σ} (hs : ∀ s ∈ steps, allowed s) {w : W} (hw : c.sound w) :
    (L.guarded P).run budget steps w = L.run budget steps w ∧
      c.sound (L.run budget steps w).2 ∧
      ∃ b, c.leads b w (L.run budget steps w).2 ∧
        (b = true → ∃ o ∈ (L.run budget steps w).1, Act.isExhausted o.ending = true) :=
  h.pursues.run hP budget hs hw

theorem Pursues.throughout (h : L.Pursues c allowed) (hP : ∀ w, c.sound w → P w) (budget : Nat)
    {steps : List σ} (hs : ∀ s ∈ steps, allowed s) {w : W} (hw : c.sound w) :
    L.Throughout P budget steps w :=
  have ran := h.run hP budget hs hw
  ⟨ran.1, hP _ ran.2.1⟩

theorem Heeds.throughout (h : L.Heeds c allowed) (hP : ∀ w, c.sound w → P w) (budget : Nat)
    {steps : List σ} (hs : ∀ s ∈ steps, allowed s) {w : W} (hw : c.sound w) :
    L.Throughout P budget steps w :=
  h.pursues.throughout hP budget hs hw

theorem Heeds.throughoutInside (h : L.Heeds c allowed) (hP : ∀ w, c.sound w → P w) (budget : Nat)
    {inner : List σ} (hs : ∀ s ∈ inner, allowed s) {w : W} (hw : c.sound w) :
    L.ThroughoutInside P budget inner w := by
  have carried := h.nested (P := P) (h.exec hP budget)
  have ran := Course.Carries.forM (fun s there => carried.inside s (hs s there)) w hw
  exact ⟨ran.same, hP _ ran.sound⟩

end Language

end LiveState
