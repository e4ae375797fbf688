import LiveState.Proofs.Observable.History

/-! # Calls in progress

Calls lie inside one another, and whatever happens in a call has it in progress.  In a well-formed
history all calls have come to their ends.
-/

namespace LiveState

open History

variable {α : Type} {initial : α}

namespace History

/-- How an occurrence changes the calls in progress. -/
def hold (ids : List Nat) : Occurrence α → List Nat
  | .called _ id _ => id :: ids
  | .returned _ _ | .faulted _ _ => ids.tail
  | _ => ids

/-- Who is being called after a history, the innermost call first. -/
def calling (h : History α) : List Nat := h.foldl hold []

theorem calling_append (h s : History α) : (h ++ s).calling = s.foldl hold h.calling :=
  List.foldl_append

/-- Nothing changes the value while somebody is called who was registered before `id`. -/
def Undisturbed (id : Nat) (h : History α) : Prop :=
  ∀ (pre post : History α) (number : Nat) (v : α), h = pre ++ .committed number v :: post →
    ∀ j ∈ pre.calling, id ≤ j

theorem Undisturbed.of_append {id : Nat} {h s : History α} (u : (h ++ s).Undisturbed id) :
    h.Undisturbed id := fun pre post number v split =>
  u pre (post ++ s) number v (by rw [split, List.append_assoc]; rfl)

end History

/-! ## Calls come to their ends -/

/-- All calls that begin in `s` end there, and no other ones do. -/
structure Balanced (s : History α) : Prop where
  settles : ∀ ids, s.foldl hold ids = ids
  keeps : ∀ ids a b, s = a ++ b → ids <:+ a.foldl hold ids

namespace Balanced

variable {s t : History α}

theorem nil : Balanced ([] : History α) where
  settles _ := rfl
  keeps ids a b e := by
    obtain ⟨rfl, -⟩ := List.append_eq_nil_iff.1 e.symm
    exact List.suffix_refl ids

theorem append (first : Balanced s) (second : Balanced t) : Balanced (s ++ t) where
  settles ids := by rw [List.foldl_append, first.settles, second.settles]
  keeps ids a b e := by
    rcases List.append_eq_append_iff.1 e with ⟨a', rfl, e'⟩ | ⟨b', e', -⟩
    · rw [List.foldl_append, first.settles]
      exact second.keeps ids a' b e'
    · exact first.keeps ids a b' e'

theorem single {o : Occurrence α} (aside : ∀ ids, hold ids o = ids) : Balanced [o] where
  settles := aside
  keeps ids a b e := by
    rcases a with _ | ⟨x, a⟩
    · exact List.suffix_refl ids
    · obtain ⟨rfl, rfl, -⟩ : o = x ∧ a = [] ∧ b = [] := by simpa using e
      rw [List.foldl_cons, aside]
      exact List.suffix_refl ids

theorem cons {o : Occurrence α} (aside : ∀ ids, hold ids o = ids) (rest : Balanced s) :
    Balanced (o :: s) := (single aside).append rest

theorem call {pass : Option Nat} {id : Nat} {v : α} {ending : Occurrence α}
    (ends : ∀ ids, hold ids ending = ids.tail) (inner : Balanced s) :
    Balanced (.called pass id v :: s ++ [ending]) where
  settles ids := by
    rw [List.foldl_append, List.foldl_cons (l := s), inner.settles, List.foldl_cons, ends]
    rfl
  keeps ids a b e := by
    rcases List.append_eq_append_iff.1 e with ⟨a', rfl, e'⟩ | ⟨b', e', -⟩
    · rw [List.foldl_append, List.foldl_cons, inner.settles]
      rcases a' with _ | ⟨x, a'⟩
      · exact List.suffix_cons id ids
      · obtain ⟨rfl, rfl, -⟩ : ending = x ∧ a' = [] ∧ b = [] := by simpa using e'
        rw [List.foldl_cons, ends]
        exact List.suffix_refl ids
    · rcases a with _ | ⟨x, a⟩
      · exact List.suffix_refl ids
      · obtain ⟨rfl, rfl⟩ := List.cons.inj e'
        exact (List.suffix_cons id ids).trans (inner.keeps _ a b' rfl)

theorem calling (h : History α) (b : Balanced s) : (h ++ s).calling = h.calling := by
  rw [calling_append, b.settles]

theorem mem_calling {h a b : History α} {id : Nat} (bal : Balanced (a ++ b))
    (called : id ∈ h.calling) : id ∈ (h ++ a).calling := by
  rw [calling_append]
  exact (bal.keeps _ a b rfl).subset called

end Balanced

mutual

theorem Episode.balanced {h s : History α} : Episode initial h s → Balanced s
  | .nil => .nil
  | .registered _ call rest => (Balanced.cons (fun _ => rfl) call.balanced).append rest.balanced
  | .committed turns rest => (Balanced.cons (fun _ => rfl) turns.balanced).append rest.balanced
  | .silenced _ _ rest => .cons (fun _ => rfl) (.cons (fun _ => rfl) rest.balanced)
  | .stuck _ _ rest => .cons (fun _ => rfl) rest.balanced

theorem Call.balanced {pass : Option Nat} {id : Nat} {v : α} {h c : History α} :
    Call initial pass id v h c → Balanced c
  | .returned _ inner => .call (fun _ => rfl) (.cons (fun _ => rfl) inner.balanced)
  | .faulted _ inner => .call (fun _ => rfl) (.cons (fun _ => rfl) inner.balanced)

theorem Turns.balanced {number : Nat} {v : α} {ids : List Nat} {h t : History α} :
    Turns initial number v ids h t → Balanced t
  | .nil => .nil
  | .called _ call rest => call.balanced.append rest.balanced
  | .passedOver _ rest => .cons (fun _ => rfl) rest.balanced

end

/-! ## Undisturbed calls -/

/-- While somebody is called who was registered before, nothing changes the value. -/
theorem Balanced.not_committed {h s : History α} {id j : Nat} (b : Balanced s)
    (u : (h ++ s).Undisturbed id) (called : j ∈ h.calling) (before : j < id) (number : Nat)
    (v : α) : .committed number v ∉ s := by
  intro committed
  obtain ⟨a, c, rfl⟩ := List.append_of_mem committed
  have late := u (h ++ a) c number v (List.append_assoc h a _).symm j (b.mem_calling called)
  omega

/-- Whoever was registered before changes nothing when called. -/
theorem Call.not_committed {pass : Option Nat} {id j : Nat} {v : α} {h c : History α}
    (call : Call initial pass j v h c) (u : (h ++ c).Undisturbed id) (before : j < id)
    (number : Nat) (w : α) : .committed number w ∉ c := by
  have now : j ∈ calling (h ++ [Occurrence.called pass j v]) := by
    simp [calling_append, hold]
  have inside {s : History α} (inner : Balanced s) (ending : Occurrence α)
      (u : (h ++ (.called pass j v :: s ++ [ending])).Undisturbed id) :
      .committed number w ∉ s := by
    have u : (h ++ [Occurrence.called pass j v] ++ s ++ [ending]).Undisturbed id := by
      simpa using u
    exact inner.not_committed u.of_append now before number w
  -- Neither the beginning of the call nor its end is a change.
  cases call with
  | returned name inner | faulted name inner =>
    simpa using inside (.cons (o := .heard name v) (fun _ => rfl) inner.balanced) _ u

end LiveState
