import LiveState.Proofs.Course

/-! # Losses

What is lost on a course is lost for good: no action makes up for it.  An action is *alert* to a loss,
compared with another one, if it does the same as long as nothing is lost, and is cut short where the
other one goes on to lose something.

A language that refuses certain steps may be alert to a loss.  Then all steps of a run begin as they
should if and only if nothing is lost in the end (`Language.Alert.whenever_iff`).  In this way what is
seen when a run is over tells in which worlds its steps have begun, at whatever depth.
-/

namespace LiveState

variable {W α β σ ρ ε : Type}

/-- Whenever a step begins in the course of a run, at whatever depth, it begins in a world as `P`
    says. -/
def Language.Whenever (L : Language W σ ρ ε) (P : W → Prop) (budget : Nat) (steps : List σ) (w : W) :
    Prop :=
  (L.guarded P).run budget steps w = L.run budget steps w

namespace Course

/-- Something that may be lost for good. -/
structure Loss (c : Course W) where
  lost : W → Prop
  stays : ∀ {b : Bool} {w w' : W}, c.leads b w w' → lost w → lost w'

namespace Loss

variable {c : Course W} {g : c.Loss} {w : W}

/-- The first action stays on the course.  If nothing is lost before, then the second one either does
    the same, and nothing is lost afterwards, or is cut short, and the first one loses something. -/
structure AlertFrom (g : c.Loss) (w : W) (m m' : Act W α) : Prop where
  carries : c.CarriesFrom w m m
  alert : ¬ g.lost w →
    m'.perform w = m.perform w ∧ ¬ g.lost (m.perform w).2 ∨
      Act.isExhausted (m'.perform w).1 = true ∧ g.lost (m.perform w).2

def Alert (g : c.Loss) (m m' : Act W α) : Prop := ∀ w, c.sound w → g.AlertFrom w m m'

/-- A change of the world that stays on the course and loses nothing. -/
structure Spares (g : c.Loss) (f : W → W) : Prop where
  admits : c.Admits f
  keeps : ∀ w, c.sound w → g.lost (f w) → g.lost w

/-! ## Actions -/

theorem AlertFrom.of_carries {m m' : Act W α} (h : c.CarriesFrom w m m')
    (keeps : g.lost (m.perform w).2 → g.lost w) : g.AlertFrom w m m' :=
  ⟨⟨rfl, h.sound, h.leads⟩, fun unlost => .inl ⟨h.same, mt keeps unlost⟩⟩

theorem AlertFrom.pure (h : c.sound w) (a : α) :
    g.AlertFrom w (Pure.pure a) (Pure.pure a) :=
  .of_carries (.pure h a) id

theorem AlertFrom.panic (h : c.sound w) : g.AlertFrom w (Act.panic : Act W α) Act.panic :=
  .of_carries (.panic h) id

theorem Spares.alert {f : W → W} (h : g.Spares f) :
    g.Alert (modify f : Act W Unit) (modify f) :=
  fun w hw => .of_carries (h.admits.carries w hw) (h.keeps w hw)

theorem AlertFrom.look {view : W → α} {f f' : α → Act W β}
    (h : g.AlertFrom w (f (view w)) (f' (view w))) :
    g.AlertFrom w (Act.view view >>= f) (Act.view view >>= f') := by
  obtain ⟨carries, alert⟩ := h
  refine ⟨.look carries, ?_⟩
  simpa only [Act.perform_bind, Act.perform_view] using alert

theorem AlertFrom.map {m m' : Act W α} (h : g.AlertFrom w m m') (f : α → β) :
    g.AlertFrom w (f <$> m) (f <$> m') := by
  refine ⟨h.carries.map f, fun unlost => ?_⟩
  simp only [Act.perform_map, Act.isExhausted_map]
  exact (h.alert unlost).imp_left fun ⟨same, kept⟩ => ⟨by rw [same], kept⟩

theorem AlertFrom.bind {m m' : Act W α} {f f' : α → Act W β} (h : g.AlertFrom w m m')
    (k : ∀ a v, m.perform w = (.ok a, v) → c.sound v → g.AlertFrom v (f a) (f' a)) :
    g.AlertFrom w (m >>= f) (m' >>= f') := by
  have carries := h.carries.bind fun a v ran hv => (k a v ran hv).carries
  refine ⟨carries, fun unlost => ?_⟩
  have sound := h.carries.sound
  rcases h.alert unlost with ⟨same, kept⟩ | ⟨cut, lost⟩
  · rcases ran : m.perform w with ⟨i | a, v⟩ <;> rw [ran] at same kept sound
    · exact .inl (by simp only [Act.perform_bind, ran, same]; exact ⟨trivial, kept⟩)
    · simpa only [Act.perform_bind, ran, same] using (k a v ran sound).alert kept
  -- What the first action has lost, the rest does not bring back.
  · refine .inr ⟨?_, ?_⟩
    · rcases ran : m'.perform w with ⟨(_ | _) | _, v⟩ <;> rw [ran] at cut
      · cases cut
      · rw [Act.perform_bind, ran]
        rfl
      · cases cut
    · rcases ran : m.perform w with ⟨i | a, v⟩ <;> rw [ran] at lost sound <;>
        simp only [Act.perform_bind, ran]
      · exact lost
      · exact g.stays (k a v ran sound).carries.leads lost

theorem Alert.bind {m m' : Act W α} {f f' : α → Act W β} (h : g.Alert m m')
    (k : ∀ a, g.Alert (f a) (f' a)) : g.Alert (m >>= f) (m' >>= f') :=
  fun w hw => (h w hw).bind fun a v _ hv => k a v hv

/-- Being cut short is not a panic, and whoever catches panics lets it through. -/
theorem AlertFrom.rescuing {m m' r : Act W Unit} (h : g.AlertFrom w m m') (k : g.Alert r r) :
    g.AlertFrom w (Act.rescuing m r) (Act.rescuing m' r) := by
  have carries := h.carries.rescuing fun v _ hv => (k v hv).carries
  refine ⟨carries, fun unlost => ?_⟩
  have sound := h.carries.sound
  rcases h.alert unlost with ⟨same, kept⟩ | ⟨cut, lost⟩
  · rcases ran : m.perform w with ⟨(_ | _) | _, v⟩ <;> rw [ran] at same kept sound <;>
      simp only [Act.perform_rescuing, ran, same]
    · simpa only [true_and] using (k v sound).alert kept
    · exact .inl ⟨trivial, kept⟩
    · exact .inl ⟨trivial, kept⟩
  · refine .inr ⟨?_, ?_⟩
    · rcases ran : m'.perform w with ⟨(_ | _) | _, v⟩ <;> rw [ran] at cut
      · cases cut
      · simpa only [Act.perform_rescuing, ran] using cut
      · cases cut
    · rcases ran : m.perform w with ⟨(_ | _) | _, v⟩ <;> rw [ran] at lost sound <;>
        simp only [Act.perform_rescuing, ran]
      · exact g.stays (k v sound).carries.leads lost
      · exact lost
      · exact lost

theorem AlertFrom.bracket {before after : W → W} {m m' : Act W α} (hw : c.sound w)
    (hb : g.Spares before) (h : g.AlertFrom (before w) m m') (ha : g.Spares after) :
    g.AlertFrom w (Act.bracket before after m) (Act.bracket before after m') := by
  refine ⟨.bracket (hb.admits w hw).2 h.carries ha.admits, fun unlost => ?_⟩
  have sound := h.carries.sound
  simp only [Act.perform_bracket]
  rcases h.alert fun lost => unlost (hb.keeps w hw lost) with ⟨same, kept⟩ | ⟨cut, lost⟩
  · exact .inl ⟨by rw [same], fun lost => kept (ha.keeps _ sound lost)⟩
  · exact .inr ⟨cut, g.stays (ha.admits _ sound).2 lost⟩

theorem Alert.forM {f f' : σ → Act W Unit} (l : List σ) (h : ∀ s, g.Alert (f s) (f' s)) :
    g.Alert (l.forM f) (l.forM f') := by
  induction l with
  | nil => exact fun w hw => .pure hw ()
  | cons s rest ih =>
    show g.Alert (f s >>= fun _ => rest.forM f) (f' s >>= fun _ => rest.forM f')
    exact (h s).bind fun _ => ih

end Loss

end Course

/-! ## Languages -/

/-- The steps that a step may set off are alert. -/
structure Nested.Alert {c : Course W} (g : c.Loss) (nested nested' : Nested W σ) : Prop where
  act : ∀ name s, g.Alert (nested.act name s) (nested'.act name s)
  inside : ∀ s, g.Alert (nested.inside s) (nested'.inside s)

namespace Language

/-- Refusing the steps that begin in other worlds than `P` says is alert to the loss: a step is,
    once it has begun, if the steps that it sets off are. -/
structure Alert (L : Language W σ ρ ε) {c : Course W} (g : c.Loss) (P : W → Prop) : Prop where
  /-- The budget may be used up anywhere. -/
  cut : ∀ w, c.sound w → c.leads true w w
  record : ∀ e, g.Spares (L.record e)
  perform : ∀ nested nested', Nested.Alert g nested nested' → ∀ s w, c.sound w →
    g.AlertFrom (L.record (.began s) w) (L.perform nested s) ((L.guarded P).perform nested' s)

variable {L : Language W σ ρ ε} {c : Course W} {g : c.Loss} {P : W → Prop} {w : W}

/-- A step that is refused has to lose something. -/
theorem alertFrom_guarded {nested nested' : Nested W σ} {s : σ}
    (carries : c.CarriesFrom w (L.perform nested s) (L.perform nested s))
    (passes : ¬ g.lost w → P w →
      ((L.perform nested' s).perform w = (L.perform nested s).perform w ∧
          ¬ g.lost ((L.perform nested s).perform w).2 ∨
        Act.isExhausted ((L.perform nested' s).perform w).1 = true ∧
          g.lost ((L.perform nested s).perform w).2))
    (refused : ¬ g.lost w → ¬ P w → g.lost ((L.perform nested s).perform w).2) :
    g.AlertFrom w (L.perform nested s) ((L.guarded P).perform nested' s) := by
  refine ⟨carries, fun unlost => ?_⟩
  by_cases h : P w
  · rw [perform_guarded h]
    exact passes unlost h
  · refine .inr ⟨?_, refused unlost h⟩
    simp [guarded, Act.perform_bind, h, Act.isExhausted]

namespace Alert

theorem exec (h : L.Alert g P) (budget : Nat) :
    ∀ s, g.Alert (L.exec budget s) ((L.guarded P).exec budget s) := by
  -- By induction on the budget: what a step sets off has a smaller one.
  induction budget with
  | zero => exact fun s w hw => .of_carries ⟨rfl, hw, h.cut w hw⟩ id
  | succ budget ih =>
    have nested : Nested.Alert g (L.nested (L.exec budget))
        ((L.guarded P).nested ((L.guarded P).exec budget)) :=
      ⟨fun name s => (ih s).bind fun r => (h.record (.did name s r)).alert,
        fun s => (ih s).bind fun r => (h.record (.inner s r)).alert⟩
    intro s w hw
    refine ((h.record (.began s)).alert w hw).bind fun _ u ran _ => ?_
    cases ran
    exact h.perform _ _ nested s w hw

/-- A run stays on the course.  If nothing is lost before, then either no step is refused, and nothing
    is lost, or some step is cut short, and something is lost. -/
theorem run (h : L.Alert g P) (budget : Nat) (steps : List σ) (hw : c.sound w) :
    c.sound (L.run budget steps w).2 ∧ (g.lost w → g.lost (L.run budget steps w).2) ∧
      (¬ g.lost w →
        L.Whenever P budget steps w ∧ ¬ g.lost (L.run budget steps w).2 ∨
          (∃ o ∈ ((L.guarded P).run budget steps w).1, Act.isExhausted o.ending = true) ∧
            g.lost (L.run budget steps w).2) := by
  induction steps generalizing w with
  | nil => exact ⟨hw, id, fun unlost => .inl ⟨rfl, unlost⟩⟩
  | cons s rest ih =>
    obtain ⟨⟨-, sound, leads⟩, alert⟩ := h.exec budget s w hw
    obtain ⟨ends, stays, further⟩ := ih sound
    refine ⟨ends, fun lost => stays (g.stays leads lost), fun unlost => ?_⟩
    rcases alert unlost with ⟨same, kept⟩ | ⟨cut, lost⟩
    -- The first step was not refused, so that both runs go on from the same world.
    · rcases further kept with ⟨rests, kept⟩ | ⟨⟨o, ho, cut⟩, lost⟩
      · refine .inl ⟨?_, kept⟩
        simp only [Whenever, Language.run, runStep_eq, same]
        exact congrArg (fun r => (_ :: r.1, r.2)) rests
      · refine .inr ⟨⟨o, ?_, cut⟩, lost⟩
        simp only [Language.run, runStep_eq, same]
        exact List.mem_cons_of_mem _ ho
    · exact .inr ⟨⟨_, List.mem_cons_self, cut⟩, stays lost⟩

/-- In a run that is not cut short, all steps begin as they should if and only if nothing is lost. -/
theorem whenever_iff (h : L.Alert g P) {budget : Nat} {steps : List σ} (hw : c.sound w)
    (unlost : ¬ g.lost w) (whole : ∀ o ∈ (L.run budget steps w).1, Act.isExhausted o.ending = false) :
    L.Whenever P budget steps w ↔ ¬ g.lost (L.run budget steps w).2 := by
  rcases (h.run budget steps hw).2.2 unlost with ⟨same, kept⟩ | ⟨⟨o, ho, cut⟩, lost⟩
  · exact ⟨fun _ => kept, fun _ => same⟩
  · refine ⟨fun same => ?_, fun kept => absurd lost kept⟩
    -- The step that was cut short would be one of the run itself.
    rw [show (L.guarded P).run budget steps w = L.run budget steps w from same] at ho
    rw [whole o ho] at cut
    cases cut

end Alert

end Language

end LiveState
