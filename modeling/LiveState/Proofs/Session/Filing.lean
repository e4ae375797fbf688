import LiveState.Proofs.Session.Attempts
import LiveState.Proofs.Session.Course
import LiveState.Proofs.Settings.RoundTrip
import LiveState.Proofs.Storage.Lasting

/-! # What the journal tells of stored settings

Which settings of a context were written back last: its first subscriber was called with them and
returned without a notice.  They are what is stored as long as they were not changed since, and
nobody else has written under their key.
-/

namespace LiveState.Session

variable {ρ : Type}

/-- How far the settings of a context have been written back. -/
structure Filing where
  /-- The record or context of which a subscriber was called last. -/
  turn : Option Source
  /-- The default was taken, so that the first value is not written. -/
  fellBack : Bool
  /-- What the first subscriber was given to write, unless it has told that it failed. -/
  writing : Option UserSettings
  /-- What it has written, if nothing else was written since and the settings are the same. -/
  filed : Option UserSettings

namespace Filing

def start : Filing := ⟨none, false, none, none⟩

def hear (s : Source) (f : Filing) : Filing := { f with turn := some s }

/-- What was written is not what is stored any more, or what the settings are. -/
def spoilIf (p : Prop) [Decidable p] (f : Filing) : Filing :=
  if p then { f with filed := none } else f

/-- Go on by a line of the journal.  Of the records and contexts, `shares` holds those whose media
    share a table with context `i`; steps on media and on files count wherever they write. -/
def next (shares : Source → Bool) (i : Nat) (f : Filing) : Line ρ → Filing
  | .began (.file (.write _ _)) | .began (.file (.putText _ _ _))
  | .began (.file (.makeForeign _)) => f.spoilIf True
  | .began (.medium _ (.write key _)) => f.spoilIf (key = settingsKey)
  | .began _ => { f with fellBack := false }
  | .happened (.notice (.fellBackToDefault _ _)) => { f with fellBack := true }
  | .happened (.settings j (.value (.called _ _ _))) => f.hear (.settings j)
  | .happened (.writing key _ _) => f.spoilIf (key = settingsKey ∧ f.turn.any shares = true)
  | .happened (.contextSettings j (.value (.committed _ _))) => f.spoilIf (j = i)
  | .happened (.contextSettings j (.value (.called pass 0 v))) =>
    if j = i then
      { f.hear (.contextSettings j) with
        writing := if f.fellBack && pass.isNone then none else some v
        filed := none }
    else (f.hear (.contextSettings j)).spoilIf (shares (.contextSettings j) = true)
  | .happened (.contextSettings j (.value (.returned _ 0))) =>
    if j = i then { f with filed := f.writing } else f
  | .happened (.contextSettings j (.notice _)) => if j = i then { f with writing := none } else f
  | _ => f

variable {shares shares' : Source → Bool} {i : Nat} {f f' : Filing} {u : UserSettings}

theorem filed_of_spoilIf {p : Prop} [Decidable p] (h : (f.spoilIf p).filed = some u) :
    ¬ p ∧ f.filed = some u := by
  unfold spoilIf at h
  split at h
  · cases h
  · next no => exact ⟨no, h⟩

/-- Only the return of the first subscriber tells that something was written. -/
theorem filed_of_next {e : Line ρ}
    (h : ∀ pass, e ≠ .happened (.contextSettings i (.value (.returned pass 0))))
    (filed : (f.next shares i e).filed = some u) : f.filed = some u := by
  unfold next at filed
  split at filed
  case h_11 j pass =>
    split at filed
    · next same => exact absurd (same ▸ rfl) (h pass)
    · exact filed
  case h_10 =>
    split at filed
    · cases filed
    · exact (filed_of_spoilIf filed).2
  case h_12 => split at filed <;> exact filed
  all_goals first
    | exact filed
    | exact (filed_of_spoilIf filed).2

/-! ## Doubts -/

/-- The more media share a table, the less is certain; nothing else depends on that. -/
structure Firmer (f f' : Filing) : Prop where
  turn : f'.turn = f.turn
  fellBack : f'.fellBack = f.fellBack
  writing : f'.writing = f.writing
  filed : ∀ u, f'.filed = some u → f.filed = some u

namespace Firmer

theorem refl (f : Filing) : Firmer f f := ⟨rfl, rfl, rfl, fun _ => id⟩

theorem unfiled (h : Firmer f f') (none : f.filed = none) : f'.filed = .none :=
  Option.eq_none_iff_forall_ne_some.2 fun u filed => nomatch none.symm.trans (h.filed u filed)

theorem hear (h : Firmer f f') (s : Source) : Firmer (f.hear s) (f'.hear s) :=
  ⟨rfl, h.fellBack, h.writing, h.filed⟩

theorem spoilIf (h : Firmer f f') {p p' : Prop} [Decidable p] [Decidable p'] (imp : p → p') :
    Firmer (f.spoilIf p) (f'.spoilIf p') := by
  by_cases hp : p
  · rw [Filing.spoilIf, Filing.spoilIf, if_pos hp, if_pos (imp hp)]
    exact ⟨h.turn, h.fellBack, h.writing, nofun⟩
  · rw [Filing.spoilIf, if_neg hp]
    unfold Filing.spoilIf
    split
    · exact ⟨h.turn, h.fellBack, h.writing, nofun⟩
    · exact h

theorem next (h : Firmer f f') (more : ∀ s, shares s = true → shares' s = true) (e : Line ρ) :
    Firmer (f.next shares i e) (f'.next shares' i e) := by
  unfold Filing.next
  split
  case h_8 =>
    refine h.spoilIf (And.imp_right fun shared => ?_)
    rw [h.turn]
    cases whose : f.turn with
    | none => simp [whose] at shared
    | some s => exact more s (by simpa [whose] using shared)
  case h_10 =>
    split
    · exact ⟨rfl, h.fellBack, by rw [h.fellBack], nofun⟩
    · exact (h.hear _).spoilIf (more _)
  case h_11 =>
    split
    · exact ⟨h.turn, h.fellBack, h.writing, by rw [h.writing]; exact fun _ => id⟩
    · exact h
  case h_12 =>
    split
    · exact ⟨h.turn, h.fellBack, rfl, h.filed⟩
    · exact h
  case h_5 | h_6 => exact ⟨h.turn, rfl, h.writing, h.filed⟩
  case h_7 => exact h.hear _
  case h_13 => exact h
  all_goals exact h.spoilIf id

end Firmer

theorem firmer_foldl (more : ∀ s, shares s = true → shares' s = true) (lines : List (Line ρ)) :
    Firmer (lines.foldl (next shares i) f) (lines.foldl (next shares' i) f) := by
  have onward (f f' : Filing) (h : Firmer f f') :
      Firmer (lines.foldl (next shares i) f) (lines.foldl (next shares' i) f') := by
    induction lines generalizing f f' with
    | nil => exact h
    | cons e lines ih => exact ih _ _ (h.next more e)
  exact onward f f (.refl f)

end Filing

/-! ## Worlds -/

section Worlds

variable [Inhabited ρ]

def World.mediumOf (w : World ρ) : Source → Medium
  | .settings j => (w.recordAccess j).medium
  | .contextSettings j => (w.contextAccess j).medium
  | .contextPanels _ => .disabled

/-- Whether what is written there can be read from the medium of context `i`. -/
def World.shares (w : World ρ) (i : Nat) (s : Source) : Bool :=
  decide ((w.mediumOf s).Shares (w.contextAccess i).medium)

/-- How far the settings of context `i` have been written back. -/
def World.filing (w : World ρ) (i : Nat) : Filing :=
  w.journal.toList.foldl (Filing.next (w.shares i) i) .start

variable {w w' : World ρ} {i : Nat} {u : UserSettings}

namespace World

theorem filing_record (e : Line ρ) :
    (w.record e).filing i = (w.filing i).next (w.shares i) i e := by
  simp only [filing, record, Array.toList_push, List.foldl_append]
  rfl

/-- What the first subscriber was given to write has been written when it returns. -/
theorem filing_returned (w : World ρ) (i : Nat) (pass : Option Nat) :
    ((w.note (.contextSettings i (.value (.returned pass 0)))).filing i).filed =
      (w.filing i).writing := by
  rw [note, filing_record]
  simp [Filing.next]

theorem filed_record {e : Line ρ}
    (h : ∀ pass, e ≠ .happened (.contextSettings i (.value (.returned pass 0))))
    (filed : ((w.record e).filing i).filed = some u) : (w.filing i).filed = some u := by
  rw [filing_record] at filed
  exact Filing.filed_of_next h filed

theorem shares_eq_false (off : (w.contextAccess i).medium = .disabled) (s : Source) :
    w.shares i s = false := by
  refine decide_eq_false fun ⟨on, same⟩ => on ?_
  rw [off] at same
  cases whose : w.mediumOf s <;> rw [whose] at same <;> first | rfl | cases same

/-- Records and contexts keep their media, so that new ones only cast further doubts. -/
theorem firmer_filing (journal : w'.journal = w.journal)
    (kept : ∀ s, w.mediumOf s ≠ .disabled → w'.mediumOf s = w.mediumOf s) :
    (w.filing i).Firmer (w'.filing i) := by
  unfold filing
  rw [journal]
  refine Filing.firmer_foldl (fun s shared => ?_) _
  have on : (w.contextAccess i).medium ≠ .disabled := fun off => by
    rw [shares_eq_false off] at shared
    cases shared
  have shared := of_decide_eq_true shared
  refine decide_eq_true ?_
  rwa [kept s shared.1, show (w'.contextAccess i).medium = _ from kept (.contextSettings i) on]

end World

end Worlds

end LiveState.Session
