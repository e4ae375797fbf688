import LiveState.Proofs.Observable.Calls
import LiveState.Proofs.Observable.Silence

/-! # What a subscriber is told

The values that a subscriber has received, compared with the changes made since its registration.  At
any moment a subscriber has one of four standings, and the history says what it has received and
which changes there have been.
-/

namespace LiveState

open History

variable {α : Type} {initial : α} {id : Nat}

namespace History

/-- The values that subscriber `id` has received, in order, and by which pass each of them.  Only the
    line that a script writes in a call counts, not the line that announces the call. -/
def deliveries (id : Nat) : History α → List (Option Nat × α)
  | .called pass j _ :: .heard _ v :: rest =>
    if j = id then (pass, v) :: deliveries id rest else deliveries id rest
  | _ :: rest => deliveries id rest
  | [] => []

def change? : Occurrence α → Option (Nat × α)
  | .committed number v => some (number, v)
  | _ => none

def changes (h : History α) : List (Nat × α) := h.filterMap change?

/-- The call that tells a subscriber of a change. -/
def telling (change : Nat × α) : Option Nat × α := (some change.1, change.2)

def silences (id : Nat) : Occurrence α → Bool
  | .silenced j => j == id
  | _ => false

/-- What happens before subscriber `id` is silenced. -/
def whileActive (id : Nat) (h : History α) : History α := h.takeWhile fun o => !silences id o

theorem deliveries_append (h : History α) {s : History α}
    (silent : ∀ name v rest, s ≠ .heard name v :: rest) :
    deliveries id (h ++ s) = deliveries id h ++ deliveries id s := by
  fun_induction deliveries id h with
  | case1 pass u name v rest ih => simp [deliveries, ih]
  | case2 pass j u name v rest other ih => simp [deliveries, other, ih]
  | case3 o rest alone ih =>
    -- A line that is not answered at once is not answered by what comes later either.
    rw [List.cons_append, deliveries, ih]
    rintro pass j u name v later rfl answered
    rcases rest with _ | ⟨x, rest⟩
    · exact silent name v later answered
    · obtain ⟨rfl, -⟩ := List.cons.inj answered
      exact alone pass j u name v rest rfl rfl
  | case4 => rfl

/-- Nothing is received but by being heard. -/
theorem deliveries_snoc (h : History α) {o : Occurrence α} (silent : ∀ name v, o ≠ .heard name v) :
    deliveries id (h ++ [o]) = deliveries id h := by
  rw [deliveries_append h fun name v rest same => silent name v (List.cons.inj same).1]
  simp [deliveries]

theorem deliveries_call (h : History α) (pass : Option Nat) (j : Nat) (u : α) (name : String) (v : α) :
    deliveries id (h ++ [.called pass j u, .heard name v]) =
      deliveries id h ++ if j = id then [(pass, v)] else [] := by
  rw [deliveries_append h (s := [.called pass j u, .heard name v]) nofun]
  simp [deliveries]

theorem changes_append (h s : History α) : changes (h ++ s) = changes h ++ changes s :=
  List.filterMap_append

theorem silences_iff {o : Occurrence α} : silences id o = true ↔ o = .silenced id := by
  cases o <;> simp [silences]

theorem not_silenced_whileActive (h : History α) : .silenced id ∉ whileActive id h := fun off => by
  simpa [silences] using List.all_eq_true.1 List.all_takeWhile _ off

theorem whileActive_append {h : History α} (on : .silenced id ∉ h) (s : History α) :
    whileActive id (h ++ s) = h ++ whileActive id s := by
  refine List.takeWhile_append_of_pos fun o ho => ?_
  rw [Bool.not_eq_true', Bool.eq_false_iff]
  exact fun off => on (silences_iff.1 off ▸ ho)

theorem whileActive_of_not_silenced {h : History α} (on : .silenced id ∉ h) :
    whileActive id h = h := by
  simpa [whileActive] using whileActive_append on []

theorem whileActive_append_of_silenced {h : History α} (off : .silenced id ∈ h) (s : History α) :
    whileActive id (h ++ s) = whileActive id h := by
  obtain ⟨a, b, rfl, on⟩ := List.eq_append_cons_of_mem off
  rw [List.append_assoc, whileActive_append on, whileActive_append on]
  simp [whileActive, silences]

theorem changes_whileActive_append {h s : History α} (still : changes s = []) :
    changes (whileActive id (h ++ s)) = changes (whileActive id h) := by
  by_cases off : .silenced id ∈ h
  · rw [whileActive_append_of_silenced off]
  · have inside : (changes (whileActive id s)).Sublist (changes s) :=
      (List.takeWhile_sublist _).filterMap _
    rw [still] at inside
    rw [whileActive_append off, whileActive_of_not_silenced off, changes_append,
      List.sublist_nil.1 inside, List.append_nil]

theorem stored_eq (h : History α) : h.stored = (changes h).map (·.2) := by
  rw [changes, List.map_filterMap]
  exact congrArg (h.filterMap ·) (funext fun o => by cases o <;> rfl)

/-! ## What is due -/

/-- Subscriber `id`, registered after `pre`, first receives the value current then, and then every
    change made while it is active, in the order of the changes; it has received all these but for
    those that are `due`. -/
def Owes (initial : α) (id : Nat) (pre post : History α) (due : List (Option Nat × α)) : Prop :=
  deliveries id (pre ++ .registered id :: post) ++ due =
    (none, pre.current initial) :: (changes (whileActive id post)).map telling

namespace Owes

variable {pre post s : History α} {due : List (Option Nat × α)}

theorem aside (h : Owes initial id pre post due)
    (other : ∀ h : History α, deliveries id (h ++ s) = deliveries id h) (still : changes s = []) :
    Owes initial id pre (post ++ s) due := by
  rw [Owes, changes_whileActive_append still, ← List.cons_append, ← List.append_assoc, other]
  exact h

theorem late (h : Owes initial id pre post due)
    (other : ∀ h : History α, deliveries id (h ++ s) = deliveries id h)
    (off : .silenced id ∈ post) : Owes initial id pre (post ++ s) due := by
  rw [Owes, whileActive_append_of_silenced off, ← List.cons_append, ← List.append_assoc, other]
  exact h

theorem change (h : Owes initial id pre post []) (on : .silenced id ∉ post) (number : Nat)
    (v : α) : Owes initial id pre (post ++ [.committed number v]) [(some number, v)] := by
  have on' : .silenced id ∉ post ++ [.committed number v] := by simpa using on
  rw [Owes, whileActive_of_not_silenced on] at h
  rw [Owes, whileActive_of_not_silenced on', ← List.cons_append, ← List.append_assoc,
    deliveries_snoc _ nofun, changes_append, List.map_append, ← List.cons_append, ← h]
  simp [changes, change?, telling]

theorem call {pass : Option Nat} {u v : α} {name : String}
    (h : Owes initial id pre post [(pass, v)]) :
    Owes initial id pre (post ++ [.called pass id u, .heard name v]) [] := by
  rw [Owes, changes_whileActive_append rfl, ← List.cons_append, ← List.append_assoc,
    deliveries_call, ← h]
  simp

/-- If nothing is due, the value that was received last is the current one. -/
theorem current_told (h : Owes initial id pre post []) (on : .silenced id ∉ post) :
    (deliveries id (pre ++ .registered id :: post)).getLast?.map (·.2) =
      some (current initial (pre ++ .registered id :: post)) := by
  rw [Owes, List.append_nil, whileActive_of_not_silenced on] at h
  have later : stored (pre ++ .registered id :: post) = stored pre ++ (changes post).map (·.2) := by
    rw [← stored_eq, stored, List.filterMap_append]
    rfl
  rw [h, current, current, later]
  rcases List.eq_nil_or_concat (changes post) with none | ⟨earlier, c, last⟩
  · simp [none]
  · rw [last, List.concat_eq_append, List.map_append, ← List.cons_append, List.map_singleton,
      List.getLast?_concat]
    simp [telling]

end Owes

/-! ## Standings -/

inductive Standing (α : Type) where
  | absent
  /-- It has not received the latest value yet. -/
  | awaiting (pass : Option Nat) (v : α)
  /-- It has received the latest value. -/
  | abreast
  | gone

namespace Standing

/-- What the standing of a subscriber says about the history. -/
def Holds (initial : α) (id : Nat) (h : History α) : Standing α → Prop
  | absent => .registered id ∉ h ∧ deliveries id h = []
  | awaiting pass v => ∃ pre post, h = pre ++ .registered id :: post ∧ .silenced id ∉ h ∧
      Owes initial id pre post [(pass, v)]
  | abreast => ∃ pre post, h = pre ++ .registered id :: post ∧ .silenced id ∉ h ∧
      Owes initial id pre post []
  | gone => ∃ (pre post : History α) (missed : List (Nat × α)),
      h = pre ++ .registered id :: post ∧ .silenced id ∈ post ∧ missed.length ≤ 1 ∧
        Owes initial id pre post (missed.map telling)

def Settled : Standing α → Prop
  | awaiting _ _ => False
  | absent | abreast | gone => True

def change (number : Nat) (v : α) : Standing α → Standing α
  | abreast => awaiting (some number) v
  | σ => σ

namespace Holds

variable {h : History α} {σ : Standing α}

theorem silenced (holds : Holds initial id h gone) : .silenced id ∈ h := by
  obtain ⟨pre, post, _, rfl, off, -⟩ := holds
  simp [off]

theorem aside (holds : Holds initial id h σ) {s : History α}
    (other : ∀ h : History α, deliveries id (h ++ s) = deliveries id h) (still : changes s = [])
    (unknown : .registered id ∉ s) (on : .silenced id ∉ s) : Holds initial id (h ++ s) σ := by
  cases σ with
  | absent => exact ⟨by simpa [unknown] using holds.1, (other h).trans holds.2⟩
  | awaiting | abreast =>
    obtain ⟨pre, post, rfl, heard, owes⟩ := holds
    exact ⟨pre, post ++ s, by simp, by simpa [on] using heard, owes.aside other still⟩
  | gone =>
    obtain ⟨pre, post, missed, rfl, off, few, owes⟩ := holds
    exact ⟨pre, post ++ s, missed, by simp, by simp [off], few, owes.aside other still⟩

theorem note (holds : Holds initial id h σ) {o : Occurrence α} (still : change? o = none)
    (silent : ∀ name v, o ≠ .heard name v) (unknown : o ≠ .registered id)
    (on : o ≠ .silenced id) : Holds initial id (h ++ [o]) σ :=
  holds.aside (fun h => deliveries_snoc h silent) (by simp [changes, still])
    (by simpa using unknown.symm) (by simpa using on.symm)

theorem elsewhere (holds : Holds initial id h σ) {j : Nat} (other : j ≠ id) (pass : Option Nat)
    (name : String) (v : α) :
    Holds initial id (h ++ [.called pass j v, .heard name v]) σ :=
  holds.aside (fun h => by simp [deliveries_call, other]) rfl (by simp) (by simp)

theorem changed (holds : Holds initial id h σ) (settled : σ.Settled) (number : Nat) (v : α) :
    Holds initial id (h ++ [.committed number v]) (σ.change number v) := by
  cases σ with
  | absent => 
    refine ⟨by simpa using holds.1, ?_⟩
    rw [deliveries_snoc h (o := .committed number v) nofun, holds.2]
  | awaiting => exact settled.elim
  | abreast =>
    obtain ⟨pre, post, rfl, on, owes⟩ := holds
    refine ⟨pre, post ++ [.committed number v], by simp, by simpa using on, owes.change ?_ _ _⟩
    exact fun off => on (by simp [off])
  | gone =>
    obtain ⟨pre, post, missed, rfl, off, few, owes⟩ := holds
    exact ⟨pre, post ++ [.committed number v], missed, by simp, by simp [off], few,
      owes.late (fun h => deliveries_snoc h nofun) off⟩

theorem registered (holds : Holds initial id h absent) (new : .silenced id ∉ h) :
    Holds initial id (h ++ [.registered id]) (awaiting none (h.current initial)) := by
  refine ⟨h, [], rfl, by simpa using new, ?_⟩
  rw [Owes, deliveries_snoc h (o := .registered id) nofun, holds.2]
  rfl

theorem called {pass : Option Nat} {v : α} (holds : Holds initial id h (awaiting pass v))
    (name : String) : Holds initial id (h ++ [.called pass id v, .heard name v]) abreast := by
  obtain ⟨pre, post, rfl, on, owes⟩ := holds
  exact ⟨pre, post ++ [.called pass id v, .heard name v], by simp, by simpa using on, owes.call⟩

/-- At most the pass of one change is still to come when a subscriber is silenced. -/
theorem hushed (holds : Holds initial id h σ)
    (on : σ = abreast ∨ ∃ number v, σ = awaiting (some number) v) :
    Holds initial id (h ++ [.silenced id]) gone := by
  rcases on with rfl | ⟨number, v, rfl⟩
  · obtain ⟨pre, post, rfl, on, owes⟩ := holds
    exact ⟨pre, post ++ [.silenced id], [], by simp, by simp, by simp,
      owes.aside (fun h => deliveries_snoc h nofun) rfl⟩
  · obtain ⟨pre, post, rfl, on, owes⟩ := holds
    exact ⟨pre, post ++ [.silenced id], [(number, v)], by simp, by simp, by simp,
      owes.aside (fun h => deliveries_snoc h nofun) rfl⟩

end Holds

end Standing

end History

end LiveState
