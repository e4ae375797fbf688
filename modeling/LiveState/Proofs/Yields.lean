import LiveState.Proofs.Course

/-! # What actions yield

That an action comes to its end, with a result and a world of which something is true.
-/

namespace LiveState

variable {W α β : Type} {w : W} {post : α → W → Prop}

/-- From `w`, the action is not interrupted, and its result and the world it leaves behind are as
    `post` says. -/
def Act.Yields (m : Act W α) (w : W) (post : α → W → Prop) : Prop :=
  ∃ a w', m.perform w = (.ok a, w') ∧ post a w'

namespace Act.Yields

theorem pure {a : α} (h : post a w) : (Pure.pure a : Act W α).Yields w post := ⟨a, w, rfl, h⟩

theorem mono {m : Act W α} {post' : α → W → Prop} (h : m.Yields w post)
    (imp : ∀ a w', post a w' → post' a w') : m.Yields w post' := by
  obtain ⟨a, w', ran, holds⟩ := h
  exact ⟨a, w', ran, imp a w' holds⟩

theorem bind {m : Act W α} {f : α → Act W β} {post : β → W → Prop}
    (h : m.Yields w fun a w' => (f a).Yields w' post) : (m >>= f).Yields w post := by
  obtain ⟨a, u, ran, b, v, rest, holds⟩ := h
  refine ⟨b, v, ?_, holds⟩
  rw [Act.perform_bind, ran]
  exact rest

theorem look {view : W → α} {f : α → Act W β} {post : β → W → Prop}
    (h : (f (view w)).Yields w post) : (Act.view view >>= f).Yields w post :=
  bind ⟨view w, w, rfl, h⟩

theorem change {f : W → W} {post : Unit → W → Prop} (h : post () (f w)) :
    (modify f : Act W Unit).Yields w post := ⟨(), f w, rfl, h⟩

theorem map {m : Act W α} {f : α → β} {post : β → W → Prop}
    (h : m.Yields w fun a w' => post (f a) w') : (f <$> m).Yields w post := by
  obtain ⟨a, w', ran, holds⟩ := h
  refine ⟨f a, w', ?_, holds⟩
  rw [Act.perform_map, ran]
  rfl

end Act.Yields

end LiveState
