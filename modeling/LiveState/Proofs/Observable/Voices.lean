import LiveState.Proofs.Observable.Ending

/-! # Voices

In a run every call that the history announces is made: the next line is the one that the script of
the subscriber writes when it receives the value.  And no script is heard but in a call.
-/

namespace LiveState

open History

variable {α : Type} {initial : α}

/-- Every announced call is answered by the next line, and nobody is heard anywhere else. -/
inductive Answered : History α → Prop
  | nil : Answered []
  | call {s : History α} (pass : Option Nat) (id : Nat) (name : String) (v : α) : Answered s →
      Answered (.called pass id v :: .heard name v :: s)
  | aside {o : Occurrence α} {s : History α} : (∀ pass id v, o ≠ .called pass id v) →
      (∀ name v, o ≠ .heard name v) → Answered s → Answered (o :: s)

namespace Answered

variable {s t : History α}

theorem append (first : Answered s) (second : Answered t) : Answered (s ++ t) := by
  induction first with
  | nil => exact second
  | call pass id name v _ ih => exact .call pass id name v ih
  | aside uncalled silent _ ih => exact .aside uncalled silent ih

theorem heard_of_called (answered : Answered s) {a b : History α} {pass : Option Nat} {id : Nat}
    {v : α} (split : s = a ++ .called pass id v :: b) :
    ∃ name later, b = .heard name v :: later := by
  induction answered generalizing a with
  | nil => simp at split
  | @call s _ _ name _ _ ih =>
    rcases a with _ | ⟨_, _ | ⟨_, a⟩⟩
    · cases split
      exact ⟨name, s, rfl⟩
    · cases split
    · exact ih (List.cons.inj (List.cons.inj split).2).2
  | aside uncalled _ _ ih =>
    rcases a with _ | ⟨_, a⟩
    · exact absurd (List.cons.inj split).1 (uncalled pass id v)
    · exact ih (List.cons.inj split).2

theorem called_of_heard (answered : Answered s) {a b : History α} {name : String} {v : α}
    (split : s = a ++ .heard name v :: b) : ∃ earlier pass id, a = earlier ++ [.called pass id v] := by
  induction answered generalizing a with
  | nil => simp at split
  | call pass id _ _ _ ih =>
    rcases a with _ | ⟨x, _ | ⟨y, a⟩⟩
    · cases split
    · cases split
      exact ⟨[], pass, id, rfl⟩
    · obtain ⟨earlier, pass', id', rfl⟩ := ih (List.cons.inj (List.cons.inj split).2).2
      exact ⟨x :: y :: earlier, pass', id', rfl⟩
  | aside _ silent _ ih =>
    rcases a with _ | ⟨x, a⟩
    · exact absurd (List.cons.inj split).1 (silent name v)
    · obtain ⟨earlier, pass, id, rfl⟩ := ih (List.cons.inj split).2
      exact ⟨x :: earlier, pass, id, rfl⟩

end Answered

mutual

theorem Episode.answered {h s : History α} : Episode initial h s → Answered s
  | .nil => .nil
  | .registered _ call rest => (Answered.aside nofun nofun call.answered).append rest.answered
  | .committed turns rest => (Answered.aside nofun nofun turns.answered).append rest.answered
  | .silenced _ _ rest => .aside nofun nofun (.aside nofun nofun rest.answered)
  | .stuck _ _ rest => .aside nofun nofun rest.answered

theorem Call.answered {pass : Option Nat} {id : Nat} {v : α} {h c : History α} :
    Call initial pass id v h c → Answered c
  | .returned name inner =>
    .call pass id name v (inner.answered.append (.aside nofun nofun .nil))
  | .faulted name inner =>
    .call pass id name v (inner.answered.append (.aside nofun nofun .nil))

theorem Turns.answered {number : Nat} {v : α} {ids : List Nat} {h t : History α} :
    Turns initial number v ids h t → Answered t
  | .nil => .nil
  | .called _ call rest => call.answered.append rest.answered
  | .passedOver _ rest => .aside nofun nofun rest.answered

end

namespace Observable.Scenario

variable {n : Nat}

/-- Whoever is called by observable `i` receives the value at once, in the script that is kept for the
    subscriber, and no script is heard but in a call. -/
structure World.Voiced (i : Fin n) (w : World n α) : Prop where
  called : ∀ pre post pass id v, w.history i = pre ++ .called pass id v :: post →
    ∃ name rules later, w[i].callback? id = some (.script name rules) ∧ post = .heard name v :: later
  heard : ∀ pre post name v, w.history i = pre ++ .heard name v :: post →
    ∃ earlier pass id, pre = earlier ++ [.called pass id v]

theorem run_voiced [Text.Describe α] (values : Vector α n) (steps : List (Step α)) (i : Fin n) :
    (run values steps).2.Voiced i := by
  obtain ⟨agrees, episode⟩ := run_chronicle values steps i
  refine ⟨fun pre post pass id v split => ?_, fun pre post name v split =>
    episode.answered.called_of_heard split⟩
  obtain ⟨name, later, rfl⟩ := episode.answered.heard_of_called split
  have here : [.called pass id v, .heard name v] <:+: (run values steps).2.history i :=
    ⟨pre, later, by rw [split]; simp⟩
  obtain ⟨rules, found⟩ := agrees.voiced.heard pass id v name v here
  exact ⟨name, rules, later, found, rfl⟩

end Observable.Scenario

end LiveState
