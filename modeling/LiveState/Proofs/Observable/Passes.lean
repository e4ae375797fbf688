import LiveState.Proofs.Observable.History

/-! # Passes

In a well-formed history the pass of a change is found right after the change, wherever the change
was made, and nobody has a turn in it anywhere else.
-/

namespace LiveState

open History

variable {α : Type} {initial : α}

/-- Who has a turn in the pass of this change. -/
def History.turn? (number : Nat) : Occurrence α → Option Nat
  | .called (some k) id _ => if k = number then some id else none
  | .passedOver k id => if k = number then some id else none
  | _ => none

/-- Who has turns in the pass of this change, in order. -/
def History.turns (number : Nat) (h : History α) : List Nat := h.filterMap (turn? number)

theorem History.turns_append (number : Nat) (h s : History α) :
    turns number (h ++ s) = turns number h ++ turns number s := List.filterMap_append

theorem History.stored_append (h s : History α) : stored (h ++ s) = stored h ++ stored s :=
  List.filterMap_append

theorem History.stored_length_le (h s : History α) :
    (stored h).length ≤ (stored (h ++ s)).length := by
  simp [stored_append]

/-- A part of a history after `h`, with the turns in the passes that had begun before it. -/
structure Segment (initial : α) (own : Nat → List Nat) (h s : History α) : Prop where
  own_le : ∀ k, (stored h).length < k → own k = []
  old : ∀ k, k ≤ (stored h).length → turns k s = own k
  future : ∀ k, (stored (h ++ s)).length < k → turns k s = []
  /-- Every change in it is followed by its pass, which has turns nowhere else. -/
  pass : ∀ a number v b, s = a ++ .committed number v :: b →
    number = (stored (h ++ a)).length + 1 ∧ turns number s = listed (h ++ a) ∧
      ∃ t rest, b = t ++ rest ∧
        Turns initial number v (listed (h ++ a)) (h ++ a ++ [.committed number v]) t

namespace Segment

variable {own own' : Nat → List Nat} {h s t : History α}

theorem nil (h : History α) : Segment initial (fun _ => []) h [] where
  own_le _ _ := rfl
  old _ _ := rfl
  future _ _ := rfl
  pass a _ _ b e := by simp at e

theorem single {o : Occurrence α} (hs : stored? o = none)
    (small : ∀ k, (stored h).length < k → turn? k o = none) :
    Segment initial (fun k => (turn? k o).toList) h [o] where
  own_le k hk := by simp [small k hk]
  old k _ := by cases ho : turn? k o <;> simp [turns, ho]
  future k hk := by
    have := stored_length_le h [o]
    simp [turns, small k (by omega)]
  pass a number v b e := by
    rcases a with _ | ⟨x, a⟩
    · obtain ⟨rfl, -⟩ := List.cons.inj e
      simp [stored?] at hs
    · simp at e

theorem append (first : Segment initial own h s) (second : Segment initial own' (h ++ s) t)
    (le : ∀ k, (stored h).length < k → own' k = []) :
    Segment initial (fun k => own k ++ own' k) h (s ++ t) where
  own_le k hk := by simp [first.own_le k hk, le k hk]
  old k hk := by
    rw [turns_append, first.old k hk,
      second.old k (Nat.le_trans hk (stored_length_le h s))]
  future k hk := by
    rw [← List.append_assoc] at hk
    have := stored_length_le (h ++ s) t
    rw [turns_append, first.future k (by omega), second.future k hk]
    rfl
  pass a number v b e := by
    -- The change is in the second part or in the first, and has no turns in the other.
    rcases List.append_eq_append_iff.1 e with ⟨a', rfl, e'⟩ | ⟨b', rfl, e'⟩
    · obtain ⟨hn, ht, rest⟩ := second.pass a' number v b e'
      rw [← List.append_assoc]
      refine ⟨hn, ?_, rest⟩
      have := stored_length_le (h ++ s) a'
      rw [turns_append, first.future number (by omega), ht, List.nil_append]
    -- It may also be the very first of the second part.
    · rcases b' with _ | ⟨x, b'⟩
      · simp only [List.append_nil] at first second e' ⊢
        obtain ⟨hn, ht, rest⟩ := second.pass [] number v b e'.symm
        rw [List.append_nil] at hn ht rest
        refine ⟨hn, ?_, rest⟩
        rw [turns_append, first.future number (by omega), ht, List.nil_append]
      · obtain ⟨rfl, rfl⟩ : Occurrence.committed number v = x ∧ b = b' ++ t := by simpa using e'
        obtain ⟨hn, ht, u, rest, rfl, turns⟩ := first.pass a number v b' rfl
        refine ⟨hn, ?_, u, rest ++ t, by simp, turns⟩
        -- The second part begins after the change, which is an old one for it.
        have among : number ≤ (stored (h ++ (a ++ .committed number v :: (u ++ rest)))).length := by
          rw [hn, stored_append, stored_append, stored_append]
          simp only [stored, stored?, List.filterMap_cons, List.length_append, List.length_cons]
          omega
        have above := stored_length_le h a
        rw [turns_append, ht, second.old number among, le number (by omega), List.append_nil]

theorem congr (e : Segment initial own h s) (same : ∀ k, own k = own' k) :
    Segment initial own' h s := by
  obtain rfl : own = own' := funext same
  exact e

/-- Something that gives nobody a turn in an older pass, and then something else. -/
theorem cons {o : Occurrence α} (hs : stored? o = none) (none : ∀ k, turn? k o = none)
    (rest : Segment initial (fun _ => []) (h ++ [o]) s) :
    Segment initial (fun _ => []) h (o :: s) :=
  ((single hs fun k _ => none k).append rest fun _ _ => rfl).congr fun k => by simp [none k]

theorem change {v : α}
    (turns : Turns initial ((stored h).length + 1) v (listed h)
      (h ++ [.committed ((stored h).length + 1) v]) t)
    (rest : Segment initial (fun k => if k = (stored h).length + 1 then listed h else [])
      (h ++ [.committed ((stored h).length + 1) v]) t) :
    Segment initial (fun _ => []) h (.committed ((stored h).length + 1) v :: t) where
  own_le _ _ := rfl
  old k hk := by
    have inner := rest.old k (by simp [stored?]; omega)
    rw [if_neg (by omega)] at inner
    exact inner
  future k hk := rest.future k (by simpa using hk)
  pass a number w b e := by
    rcases a with _ | ⟨x, a⟩
    · simp only [List.nil_append, List.cons.injEq, Occurrence.committed.injEq] at e
      obtain ⟨⟨rfl, rfl⟩, rfl⟩ := e
      rw [List.append_nil]
      refine ⟨rfl, ?_, t, [], by simp, turns⟩
      -- The pass of this change is the one whose turns `rest` gives.
      have inner := rest.old ((stored h).length + 1) (by simp [stored?])
      rw [if_pos rfl] at inner
      exact inner
    · obtain ⟨rfl, rfl⟩ : Occurrence.committed ((stored h).length + 1) v = x ∧
          t = a ++ .committed number w :: b := by simpa using e
      obtain ⟨hn, ht, u, later, rfl, inner⟩ := rest.pass a number w b rfl
      rw [← List.singleton_append, ← List.append_assoc]
      exact ⟨hn, ht, u, later, rfl, inner⟩

theorem call {pass : Option Nat} {id : Nat} {v : α} {ending : Occurrence α}
    (began : ∀ k ∈ pass, k ≤ (stored h).length) (he : stored? ending = none)
    (none : ∀ k, turn? k ending = none)
    (inner : Segment initial (fun _ => []) (h ++ [.called pass id v]) s) :
    Segment initial (fun k => (turn? k (.called pass id v)).toList) h
      (.called pass id v :: s ++ [ending]) := by
  have first : Segment initial (fun k => (turn? k (.called pass id v)).toList) h
      [.called pass id v] := by
    refine single rfl fun k hk => ?_
    cases pass with
    | none => rfl
    | some number =>
      have := began number rfl
      exact if_neg (by omega)
  -- A call is its beginning, what happens inside, and its end.
  have last : Segment initial (fun k => (turn? k ending).toList)
      (h ++ ([.called pass id v] ++ s)) [ending] := single he fun k _ => none k
  refine ((first.append inner fun _ _ => rfl).append last fun k _ => ?_).congr fun k => ?_
  · simp [none k]
  · simp [none k]

end Segment

mutual

theorem Episode.segment {h s : History α} :
    Episode initial h s → Segment initial (fun _ => []) h s
  | .nil => .nil h
  | .registered new call rest => by
    have first := Segment.cons rfl (fun _ => rfl)
      ((call.segment nofun).congr fun k => rfl)
    exact first.append (by simpa using rest.segment) fun _ _ => rfl
  | .committed turns rest =>
    (Segment.change turns (turns.segment (by simp [stored?]))).append rest.segment fun _ _ => rfl
  | .silenced known new rest => by
    refine .cons rfl (fun _ => rfl) (.cons rfl (fun _ => rfl) ?_)
    simpa using rest.segment
  | .stuck known new rest => .cons rfl (fun _ => rfl) rest.segment

theorem Call.segment {pass : Option Nat} {id : Nat} {v : α} {h c : History α} :
    Call initial pass id v h c → (∀ k ∈ pass, k ≤ (stored h).length) →
      Segment initial (fun k => (turn? k (.called pass id v)).toList) h c
  | .returned name inner, began =>
    .call began rfl (fun _ => rfl) (.cons rfl (fun _ => rfl) (by simpa using inner.segment))
  | .faulted name inner, began =>
    .call began rfl (fun _ => rfl) (.cons rfl (fun _ => rfl) (by simpa using inner.segment))

theorem Turns.segment {number : Nat} {v : α} {ids : List Nat} {h t : History α} :
    Turns initial number v ids h t → number ≤ (stored h).length →
      Segment initial (fun k => if k = number then ids else []) h t
  | .nil, _ => (Segment.nil h).congr fun k => by simp
  | .called (c := c) on call rest, began => by
    -- What the callback has changed came after the change of this pass.
    have later := rest.segment (Nat.le_trans began (stored_length_le h c))
    refine ((call.segment (by simpa using began)).append later fun k hk => ?_).congr fun k => ?_
    · exact if_neg (by omega)
    · by_cases same : k = number
      · simp [turn?, same]
      · simp [turn?, same, Ne.symm same]
  | .passedOver off rest, began => by
    have later := rest.segment (Nat.le_trans began (stored_length_le h _))
    refine ((Segment.single rfl fun k hk => ?_).append later fun k hk => ?_).congr fun k => ?_
    · exact if_neg (by omega)
    · exact if_neg (by omega)
    · by_cases same : k = number
      · simp [turn?, same]
      · simp [turn?, same, Ne.symm same]

end

end LiveState
