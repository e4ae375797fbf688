import LiveState.Proofs.Observable.History

/-! # Silence

In a well-formed history nobody is called after being silenced, and nobody is taken off the list
unless by being silenced.  Whoever is not silenced has a call in every later pass.
-/

namespace LiveState

open History

variable {α : Type} {initial : α}

/-- What an occurrence asks of the history before it. -/
def Occurrence.Fits (before : History α) : Occurrence α → Prop
  | .called _ id _ => .silenced id ∉ before
  | .silenced id => .registered id ∈ before ∧ .silenced id ∉ before
  | .delisted id => ∃ earlier, before = earlier ++ [.silenced id]
  | _ => True

/-- Every occurrence in `s` fits the history before it, which begins with `h`. -/
def Orderly (h s : History α) : Prop :=
  ∀ a o b, s = a ++ o :: b → o.Fits (h ++ a)

namespace Orderly

variable {h s t : History α}

theorem nil : Orderly h [] := by
  intro a o b e
  simp at e

theorem cons {o : Occurrence α} (fits : o.Fits h) (rest : Orderly (h ++ [o]) s) :
    Orderly h (o :: s) := by
  intro a x b e
  rcases a with _ | ⟨y, a⟩
  · obtain ⟨rfl, -⟩ := List.cons.inj e
    rw [List.append_nil]
    exact fits
  · obtain ⟨rfl, rest'⟩ := List.cons.inj e
    have := rest a x b rest'
    rwa [List.append_assoc, List.singleton_append] at this

theorem append (first : Orderly h s) (second : Orderly (h ++ s) t) : Orderly h (s ++ t) := by
  -- Along the first part, which ends where the second begins.
  induction s generalizing h with
  | nil => simpa using second
  | cons o s ih =>
    have here : o.Fits h := by simpa using first [] o s rfl
    refine .cons here (ih (fun a x b e => ?_) (by simpa using second))
    have := first (o :: a) x b (by rw [e]; rfl)
    rwa [← List.singleton_append, ← List.append_assoc] at this

end Orderly

mutual

theorem Episode.orderly {h s : History α} : Episode initial h s → Orderly h s
  | .nil => .nil
  | .registered new call rest => by
    refine Orderly.append (.cons trivial (call.orderly ?_)) rest.orderly
    simpa using new
  | .committed turns rest => Orderly.append (.cons trivial turns.orderly) rest.orderly
  | .silenced known new rest => by
    refine .cons ⟨known, new⟩ (.cons ⟨_, rfl⟩ ?_)
    simpa using rest.orderly
  | .stuck known new rest => .cons ⟨known, new⟩ rest.orderly

theorem Call.orderly {pass : Option Nat} {id : Nat} {v : α} {h c : History α} :
    Call initial pass id v h c → .silenced id ∉ h → Orderly h c
  | .returned name inner, on => by
    refine Orderly.append (.cons on (.cons trivial ?_)) (.cons trivial .nil)
    simpa using inner.orderly
  | .faulted name inner, on => by
    refine Orderly.append (.cons on (.cons trivial ?_)) (.cons trivial .nil)
    simpa using inner.orderly

theorem Turns.orderly {number : Nat} {v : α} {ids : List Nat} {h t : History α} :
    Turns initial number v ids h t → Orderly h t
  | .nil => .nil
  | .called on call rest => Orderly.append (call.orderly on) rest.orderly
  | .passedOver _ rest => .cons trivial rest.orderly

end

theorem Underway.orderly {h : History α} (underway : Underway initial h) : Orderly [] h := by
  induction underway with
  | start => exact .nil
  | further _ episode ih => exact ih.append episode.orderly
  | @first h name _ new ih =>
    refine ih.append (.cons trivial (.cons (fun off => new ?_) (.cons trivial .nil)))
    simpa using off
  | @turn h t v _ _ id name _ _ turns on ih =>
    have pass : Orderly h (.committed (h.stored.length + 1) v :: t) := .cons trivial turns.orderly
    have call : Orderly (h ++ .committed (h.stored.length + 1) v :: t)
        [.called (some (h.stored.length + 1)) id v, .heard name v] := .cons on (.cons trivial .nil)
    rw [List.append_assoc]
    exact ih.append (pass.append call)

/-- After being silenced nobody is called or silenced again, and whoever is not taken off the list
    at once stays on it for good. -/
theorem Orderly.silenced {h pre post : History α} {id : Nat} (o : Orderly [] h)
    (split : h = pre ++ .silenced id :: post) :
    (∀ pass v, .called pass id v ∉ post) ∧ .silenced id ∉ post ∧ .delisted id ∉ post.tail := by
  -- Whatever comes later has the silencing in the history before it.
  have fits (a b : History α) (x : Occurrence α) (e : post = a ++ x :: b) :
      x.Fits (pre ++ .silenced id :: a) := by
    simpa using o (pre ++ .silenced id :: a) x b (by rw [split, e]; simp)
  have once : .silenced id ∉ post := by
    intro again
    obtain ⟨a, b, e⟩ := List.append_of_mem again
    exact (fits a b _ e).2 (by simp)
  refine ⟨fun pass v called => ?_, once, fun delisted => ?_⟩
  · obtain ⟨a, b, e⟩ := List.append_of_mem called
    exact fits a b _ e (by simp)
  · rcases post with _ | ⟨x, post⟩
    · simp at delisted
    · obtain ⟨a, b, rfl⟩ := List.append_of_mem delisted
      obtain ⟨earlier, last⟩ := fits (x :: a) b _ rfl
      -- What stands right before is not the silencing at the end of `pre`.
      have last' : (x :: a).getLast? = some (.silenced id) := by
        have := congrArg List.getLast? last
        simpa using this
      refine once (List.mem_append_left _ (?_ : Occurrence.silenced id ∈ x :: a))
      exact List.mem_of_getLast? last'

theorem Orderly.silenced_of_delisted {h : History α} {id : Nat} (o : Orderly [] h)
    (delisted : .delisted id ∈ h) : .silenced id ∈ h := by
  obtain ⟨a, b, rfl⟩ := List.append_of_mem delisted
  obtain ⟨earlier, last⟩ := o a _ b rfl
  rw [List.nil_append] at last
  simp [last]

theorem Orderly.registered_of_silenced {h : History α} {id : Nat} (o : Orderly [] h)
    (off : .silenced id ∈ h) : .registered id ∈ h := by
  obtain ⟨a, b, rfl⟩ := List.append_of_mem off
  exact List.mem_append_left _ (o a _ b rfl).1

/-! ## Whoever is not silenced -/

theorem mem_listed_of_registered {h : History α} {id : Nat} (known : .registered id ∈ h)
    (kept : .delisted id ∉ h) : id ∈ h.listed := by
  -- Either the subscriber is on the list already, or it is still going to be registered.
  suffices ∀ ids, id ∈ ids ∨ .registered id ∈ h → id ∈ h.foldl relist ids from
    this [] (.inr known)
  clear known
  induction h with
  | nil => exact fun ids now => now.resolve_right (by simp)
  | cons o h ih =>
    intro ids now
    obtain ⟨other, kept⟩ : .delisted id ≠ o ∧ .delisted id ∉ h := by simpa using kept
    refine ih kept _ ?_
    rcases now with now | known
    · left
      cases o with
      | registered j => exact List.mem_append_left _ now
      | delisted j =>
        -- Somebody else was taken off the list.
        have ne : id ≠ j := fun same => other (same ▸ rfl)
        simpa [relist] using ⟨now, ne⟩
      | _ => exact now
    · rcases List.mem_cons.1 known with rfl | known
      · exact .inl (List.mem_append_right _ (List.mem_singleton_self id))
      · exact .inr known

end LiveState
