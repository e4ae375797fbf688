import LiveState.Proofs.Storage.Media
import LiveState.Session.World

/-! # Attempts to write a record back

What the journal of a session tells about how a record is written back.  An attempt has succeeded
if the next thing that happens is the return of the subscriber that writes back: a medium that
fails is noted before that, and one that panics keeps the subscriber from returning.
-/

namespace LiveState.Session

variable {ρ : Type}

abbrev Line (ρ : Type) := Event (Step ρ) (Reply ρ) (Incident ρ)

/-- An attempt to write bytes under a key of a medium. -/
structure Attempt where
  key : String
  storage : String
  bytes : ByteArray
  succeeded : Bool

/-- Whether the first line is the return of the first subscriber of record `i`. -/
def returns (i : Nat) : List (Line ρ) → Bool
  | .happened (.settings j (.value (.returned _ 0))) :: _ => j == i
  | _ => false

/-- The attempts to write, where record `i` is the one that is written back. -/
def attempts (i : Nat) : List (Line ρ) → List Attempt
  | [] => []
  | .happened (.writing key storage bytes) :: rest =>
    ⟨key, storage, bytes, returns i rest⟩ :: attempts i rest
  | _ :: rest => attempts i rest

/-- The value of record `i` that a change stored. -/
def stored? (i : Nat) : Line ρ → Option ρ
  | .happened (.settings j (.value (.committed _ v))) => if j = i then some v else none
  | _ => none

/-- The values of record `i` that were stored, in the order of the changes. -/
def stored (i : Nat) (lines : List (Line ρ)) : List ρ := lines.filterMap (stored? i)

/-- What is under the key after the attempts: the bytes of the last one that succeeded, and what
    was there before if there is none. -/
def written (i : Nat) (lines : List (Line ρ)) (before : Option Stored) : Option Stored :=
  ((attempts i lines).filter (·.succeeded)).foldl (fun _ a => some (.bytes a.bytes)) before

/-- The medium mirrors record `i`: there is one attempt for each stored value that can be written,
    with the bytes of this very value, and the medium holds what the last one of these that
    succeeded has written. -/
structure Mirrors [Settings.Record ρ] (i : Nat) (medium : Medium) (storage key : String)
    (before : Option Stored) (lines : List (Line ρ)) (media : Media) : Prop where
  attempted : ((attempts i lines).map fun a => (a.key, a.storage, a.bytes)) =
    (stored i lines).filterMap fun v =>
      (Settings.encode v).toOption.map fun bytes => (key, storage, bytes)
  holding : media.holding medium key = written i lines before

/-! ## Fallbacks -/

def notice? : Line ρ → Option Notice
  | .happened (.notice n) | .happened (.settings _ (.notice n))
  | .happened (.contextSettings _ (.notice n)) | .happened (.contextPanels _ (.notice n)) => some n
  | _ => none

/-- The key under which the default was taken instead of what is stored, and why. -/
def fallback? (e : Line ρ) : Option (String × Settings.LoadError) :=
  match notice? e with
  | some (.fellBackToDefault key reason) => some (key, reason)
  | _ => none

def fallbacks (lines : List (Line ρ)) : List (String × Settings.LoadError) :=
  lines.filterMap fallback?

/-! ## Going on -/

/-- Nothing is being written at the end. -/
def Idle (lines : List (Line ρ)) : Prop :=
  ∀ key storage bytes, lines.getLast? ≠ some (.happened (.writing key storage bytes))

variable {i : Nat} {lines more : List (Line ρ)}

theorem attempts_cons_writing (key storage : String) (bytes : ByteArray) :
    attempts i (.happened (.writing key storage bytes) :: lines) =
      ⟨key, storage, bytes, returns i lines⟩ :: attempts i lines := rfl

theorem attempts_cons_of_ne {e : Line ρ}
    (h : ∀ key storage bytes, e ≠ .happened (.writing key storage bytes)) :
    attempts i (e :: lines) = attempts i lines := by
  cases e with
  | happened what =>
    cases what with
    | writing key storage bytes => exact absurd rfl (h key storage bytes)
    | _ => rfl
  | _ => rfl

theorem returns_cons (e : Line ρ) : returns i (e :: lines) = returns i [e] := by
  cases e with
  | happened what =>
    rcases what with ⟨_, ⟨o⟩ | _⟩ | _ | _ | _ | _ | _ <;> try rfl
    rcases o with _ | _ | _ | ⟨_, _ | _⟩ | _ | _ | _ | _ | _ <;> rfl
  | _ => rfl

/-- Whether an attempt has succeeded does not change any more. -/
theorem attempts_append (idle : Idle lines) :
    attempts i (lines ++ more) = attempts i lines ++ attempts i more := by
  induction lines with
  | nil => rfl
  | cons e rest ih =>
    by_cases writing : ∃ key storage bytes, e = .happened (.writing key storage bytes)
    · obtain ⟨key, storage, bytes, rfl⟩ := writing
      -- An attempt at the end would still be waiting for the line that decides about it.
      cases rest with
      | nil => exact absurd rfl (idle key storage bytes)
      | cons e' rest =>
        have further : returns i (e' :: rest ++ more) = returns i (e' :: rest) :=
          (returns_cons e').trans (returns_cons e').symm
        rw [List.cons_append, attempts_cons_writing, attempts_cons_writing, further,
          ih fun key storage bytes => by simpa using idle key storage bytes]
        rfl
    · have other (key storage bytes) : e ≠ .happened (.writing key storage bytes) :=
        fun same => writing ⟨key, storage, bytes, same⟩
      rw [List.cons_append, attempts_cons_of_ne other, attempts_cons_of_ne other]
      cases rest with
      | nil => rfl
      | cons e' rest => exact ih fun key storage bytes => by simpa using idle key storage bytes

theorem stored_append : stored i (lines ++ more) = stored i lines ++ stored i more :=
  List.filterMap_append

theorem idle_snoc {e : Line ρ}
    (h : ∀ key storage bytes, e ≠ .happened (.writing key storage bytes)) :
    Idle (lines ++ [e]) := by
  intro key storage bytes
  simpa using h key storage bytes

theorem idle_singleton {e : Line ρ}
    (h : ∀ key storage bytes, e ≠ .happened (.writing key storage bytes)) : Idle [e] := by
  intro key storage bytes
  simpa using h key storage bytes

theorem idle_append (idle : Idle more) (some : more ≠ []) : Idle (lines ++ more) := by
  intro key storage bytes
  rw [List.getLast?_append, Option.or_of_isSome (List.getLast?_isSome.2 some)]
  exact idle key storage bytes

theorem written_append (idle : Idle lines) (before : Option Stored) :
    written i (lines ++ more) before = written i more (written i lines before) := by
  simp only [written, attempts_append idle, List.filter_append, List.foldl_append]

namespace Mirrors

variable [Settings.Record ρ] {medium : Medium} {storage key : String} {before : Option Stored}
  {media media' : Media}

theorem nil : Mirrors (ρ := ρ) i medium storage key (media.holding medium key) [] media :=
  ⟨rfl, rfl⟩

theorem append (h : Mirrors i medium storage key before lines media) (idle : Idle lines)
    (k : Mirrors i medium storage key (media.holding medium key) more media') :
    Mirrors i medium storage key before (lines ++ more) media' where
  attempted := by
    rw [attempts_append idle, stored_append, List.map_append, List.filterMap_append, h.attempted,
      k.attempted]
  holding := by
    rw [written_append idle, ← h.holding, k.holding]

theorem other {e : Line ρ}
    (writing : ∀ key storage bytes, e ≠ .happened (.writing key storage bytes))
    (stores : stored? i e = none) (same : media'.holding medium key = media.holding medium key) :
    Mirrors i medium storage key (media.holding medium key) [e] media' where
  attempted := by
    have none : stored i [e] = [] := by simp [stored, stores]
    rw [attempts_cons_of_ne writing, none]
    rfl
  holding := by
    rw [written, attempts_cons_of_ne writing, same]
    rfl

end Mirrors

end LiveState.Session
