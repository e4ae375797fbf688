import LiveState.Proofs.Observable.Deliveries

/-! # Following the standing of a subscriber

In a well-formed history in which nothing changes the value while an earlier subscriber is called, a
subscriber that waits for the pass of a change gets its turn before the next change is made.
-/

namespace LiveState

open History

variable {α : Type} {initial : α} {id : Nat}

namespace History

/-- What is asked of a history to follow subscriber `id` through it. -/
structure Fair (id : Nat) (h : History α) : Prop where
  undisturbed : h.Undisturbed id
  orderly : Orderly [] h
  numbered : h.registered = List.range h.registered.length

namespace Fair

variable {h s : History α}

theorem of_append (f : Fair id (h ++ s)) : Fair id h where
  undisturbed := f.undisturbed.of_append
  orderly a o b split := f.orderly a o (b ++ s) (by rw [split]; simp)
  numbered := by
    have all := f.numbered
    rw [registered, List.filterMap_append] at all
    have first := congrArg (List.take h.registered.length) all
    rw [registered, List.take_left, List.take_range] at first
    rw [registered, first]
    simp

theorem next_iff (f : Fair id h) : .registered id ∈ h ↔ id < h.registered.length := by
  rw [← mem_registered, f.numbered, List.mem_range, List.length_range]

theorem ordered (f : Fair id h) : h.listed.Pairwise (· < ·) := by
  have numbers : h.registered.Pairwise (· < ·) := f.numbered ▸ List.pairwise_lt_range
  exact numbers.sublist h.listed_sublist

theorem mem_listed (f : Fair id h) (known : .registered id ∈ h) (on : .silenced id ∉ h) :
    id ∈ h.listed :=
  mem_listed_of_registered known fun off => on (f.orderly.silenced_of_delisted off)

end Fair

namespace Standing

/-- While a call is due, nothing may be changed before the turn has come. -/
def Endures (s : History α) : Standing α → Prop
  | awaiting pass _ => pass.isSome = true ∧ ∀ number v, .committed number v ∉ s
  | absent | abreast | gone => True

/-- What may have become of a standing; whoever waits is told only in its turn. -/
def Later (σ τ : Standing α) : Prop :=
  match σ with
  | awaiting _ _ => τ = σ ∨ τ = gone
  | gone => τ = gone
  | absent | abreast => τ.Settled

variable {σ τ ρ : Standing α} {s t : History α}

theorem Endures.of_settled (settled : σ.Settled) : σ.Endures s := by
  cases σ <;> trivial

theorem Endures.mono (ok : σ.Endures s) (sub : t ⊆ s) : σ.Endures t := by
  cases σ with
  | awaiting pass v => exact ⟨ok.1, fun number w there => ok.2 number w (sub there)⟩
  | absent | abreast | gone => trivial

theorem Later.refl (σ : Standing α) : σ.Later σ := by
  cases σ with
  | awaiting => exact .inl rfl
  | gone => rfl
  | absent | abreast => trivial

theorem Later.settled (later : σ.Later τ) (settled : σ.Settled) : τ.Settled := by
  cases σ with
  | awaiting => exact settled.elim
  | gone =>
    cases later
    trivial
  | absent | abreast => exact later

theorem Later.trans (first : σ.Later τ) (second : τ.Later ρ) : σ.Later ρ := by
  cases σ with
  | awaiting =>
    rcases first with rfl | rfl
    · exact second
    · exact .inr second
  | gone =>
    cases first
    exact second
  | absent | abreast => exact second.settled first

theorem Endures.later (ok : σ.Endures s) (later : σ.Later τ) : τ.Endures s := by
  cases σ with
  | awaiting =>
    rcases later with rfl | rfl
    · exact ok
    · trivial
  | gone =>
    cases later
    trivial
  | absent | abreast => exact .of_settled later

/-- What has to be true when a pass begins with the turns of `ids`: whoever waits for it has a turn in
    it, or would have one after all of these, and nobody else has one but who is silenced. -/
def Turning (number : Nat) (v : α) (id : Nat) (ids : List Nat) : Standing α → Prop
  | awaiting pass w => pass = some number ∧ w = v ∧ (id ∉ ids → ∀ j ∈ ids, j < id)
  | absent | abreast => id ∉ ids
  | gone => True

theorem Turning.tail {number j : Nat} {v : α} {ids : List Nat}
    (turning : σ.Turning number v id (j :: ids)) (other : j ≠ id) :
    σ.Turning number v id ids := by
  cases σ with
  | awaiting =>
    obtain ⟨same, same', before⟩ := turning
    refine ⟨same, same', fun out k hk => before ?_ k (List.mem_cons_of_mem j hk)⟩
    simp [Ne.symm other, out]
  | absent | abreast => exact fun there => turning (List.mem_cons_of_mem j there)
  | gone => trivial

theorem Turning.later {number : Nat} {v : α} {ids : List Nat}
    (turning : σ.Turning number v id ids) (later : σ.Later τ) : τ.Turning number v id ids := by
  cases σ with
  | awaiting =>
    rcases later with rfl | rfl
    · exact turning
    · trivial
  | gone =>
    cases later
    trivial
  | absent | abreast =>
    cases τ with
    | awaiting => exact later.elim
    | absent | abreast => exact turning
    | gone => trivial

theorem Turning.of_settled {number : Nat} {v : α} {ids : List Nat} (settled : σ.Settled)
    (out : id ∉ ids) : σ.Turning number v id ids := by
  cases σ with
  | awaiting => exact settled.elim
  | absent | abreast => exact out
  | gone => trivial

/-- While somebody else has a turn, whoever waits was registered later. -/
theorem Turning.early {number j : Nat} {pass : Option Nat} {v w : α} {ids : List Nat}
    (turning : (awaiting pass w).Turning number v id (j :: ids))
    (ordered : (j :: ids).Pairwise (· < ·)) (other : j ≠ id) : j < id := by
  by_cases turn : id ∈ j :: ids
  · exact List.rel_of_pairwise_cons ordered ((List.mem_cons.1 turn).resolve_left (Ne.symm other))
  · exact turning.2.2 turn j List.mem_cons_self

theorem Turning.first {number : Nat} {v : α} {early late : List Nat}
    (turning : σ.Turning number v id (early ++ late)) (ordered : (early ++ late).Pairwise (· < ·)) :
    σ.Turning number v id early := by
  cases σ with
  | awaiting =>
    obtain ⟨same, same', before⟩ := turning
    refine ⟨same, same', fun out k hk => ?_⟩
    by_cases turn : id ∈ late
    · exact (List.pairwise_append.1 ordered).2.2 k hk id turn
    · exact before (by simp [out, turn]) k (List.mem_append_left _ hk)
  | absent | abreast => exact fun there => turning (List.mem_append_left _ there)
  | gone => trivial

theorem Turning.rest {number : Nat} {v : α} {early late : List Nat}
    (turning : σ.Turning number v id (early ++ late)) (ordered : (early ++ late).Pairwise (· < ·))
    (told : id ∈ early → τ.Settled) (later : id ∉ early ∨ σ = gone → σ.Later τ) :
    τ.Turning number v id late := by
  by_cases turn : id ∈ early
  · refine .of_settled (told turn) fun again => ?_
    exact Nat.lt_irrefl id ((List.pairwise_append.1 ordered).2.2 id turn id again)
  · refine Turning.later ?_ (later (.inl turn))
    cases σ with
    | awaiting =>
      obtain ⟨same, same', before⟩ := turning
      exact ⟨same, same', fun out k hk => before (by simp [out, turn]) k (List.mem_append_right _ hk)⟩
    | absent | abreast => exact fun there => turning (List.mem_append_right _ there)
    | gone => trivial

theorem Turning.endures {number j : Nat} {v : α} {ids : List Nat} {h c : History α}
    (turning : σ.Turning number v id (j :: ids)) (ordered : (j :: ids).Pairwise (· < ·))
    (other : j ≠ id) (call : Call initial (some number) j v h c)
    (u : (h ++ c).Undisturbed id) : σ.Endures c := by
  cases σ with
  | awaiting =>
    have early := turning.early ordered other
    obtain ⟨rfl, -⟩ := turning
    exact ⟨rfl, fun number v => call.not_committed u early number v⟩
  | absent | abreast | gone => trivial

namespace Holds

variable {h : History α}

/-- Whoever has a turn waits for it, unless it was silenced. -/
theorem awaits {number : Nat} {v : α} {ids : List Nat} (holds : Holds initial id h σ)
    (turning : σ.Turning number v id (id :: ids)) (on : .silenced id ∉ h) :
    σ = awaiting (some number) v := by
  cases σ with
  | awaiting =>
    obtain ⟨rfl, rfl, -⟩ := turning
    rfl
  | absent | abreast => exact (turning List.mem_cons_self).elim
  | gone => exact (on holds.silenced).elim

/-- Whoever has a turn in a pass and is silenced has been so before the pass. -/
theorem gone_of_silenced {number : Nat} {v : α} {ids : List Nat} (holds : Holds initial id h σ)
    (turning : σ.Turning number v id (id :: ids)) (off : .silenced id ∈ h) : σ = gone := by
  cases σ with
  | awaiting =>
    obtain ⟨_, _, _, on, _⟩ := holds
    exact (on off).elim
  | absent | abreast => exact (turning List.mem_cons_self).elim
  | gone => rfl

/-- Whoever is called is abreast of the changes; for the others nothing is changed by a call. -/
theorem begun {pass : Option Nat} {j : Nat} {v : α} (holds : Holds initial id h σ)
    (turn : j = id → σ = awaiting pass v) (endures : j ≠ id → σ.Endures s) (name : String) :
    ∃ σ', Holds initial id (h ++ [.called pass j v, .heard name v]) σ' ∧ σ'.Endures s ∧
      ∀ τ, σ'.Later τ → (j = id → τ.Settled) ∧ (j ≠ id → σ.Later τ) := by
  by_cases own : j = id
  · subst own
    obtain rfl := turn rfl
    exact ⟨abreast, holds.called name, trivial,
      fun τ later => ⟨fun _ => later, fun other => (other rfl).elim⟩⟩
  · exact ⟨σ, holds.elsewhere own pass name v, endures own,
      fun τ later => ⟨fun same => (own same).elim, fun _ => later⟩⟩

theorem known (holds : Holds initial id h abreast) : .registered id ∈ h := by
  obtain ⟨pre, post, rfl, -⟩ := holds
  simp

theorem heard (holds : Holds initial id h abreast) : .silenced id ∉ h := by
  obtain ⟨_, _, _, on, _⟩ := holds
  exact on

theorem absent_of_new (holds : Holds initial id h σ) (new : .registered id ∉ h) : σ = absent := by
  cases σ with
  | absent => rfl
  | awaiting | gone | abreast =>
    obtain ⟨pre, post, rest⟩ := holds
    refine absurd ?_ new
    first | rw [rest.1] | rw [rest.choose_spec.1]
    simp

/-- Whoever is silenced has been told everything, or waits for a pass. -/
theorem silence {j : Nat} (holds : Holds initial id h σ) (known : .registered j ∈ h)
    (on : .silenced j ∉ h) (endures : σ.Endures s) :
    ∃ τ, Holds initial id (h ++ [.silenced j]) τ ∧ σ.Later τ := by
  by_cases own : j = id
  · subst own
    cases σ with
    | absent => exact absurd known holds.1
    | awaiting pass v =>
      obtain ⟨number, rfl⟩ := Option.isSome_iff_exists.1 endures.1
      exact ⟨gone, holds.hushed (.inr ⟨number, v, rfl⟩), .inr rfl⟩
    | abreast => exact ⟨gone, holds.hushed (.inl rfl), trivial⟩
    | gone => exact absurd holds.silenced on
  · exact ⟨σ, holds.note rfl nofun nofun (by simpa using own), .refl σ⟩

/-- A change is told in its pass, in which everybody has a turn who is abreast of the changes. -/
theorem turning (holds : Holds initial id h σ) (settled : σ.Settled) (fair : Fair id h)
    (number : Nat) (v : α) : (σ.change number v).Turning number v id h.listed := by
  cases σ with
  | absent => exact fun there => holds.1 (mem_registered_of_mem_listed there)
  | awaiting => exact settled.elim
  | abreast => exact ⟨rfl, rfl, fun out => (out (fair.mem_listed holds.known holds.heard)).elim⟩
  | gone => trivial

theorem passed (holds : Holds initial id h σ) (settled : σ.Settled) (fair : Fair id h)
    {number : Nat} {v : α} (told : id ∈ h.listed → τ.Settled)
    (later : id ∉ h.listed ∨ σ.change number v = gone → (σ.change number v).Later τ) :
    σ.Later τ := by
  cases σ with
  | absent => exact later (.inl fun there => holds.1 (mem_registered_of_mem_listed there))
  | awaiting => exact settled.elim
  | abreast => exact told (fair.mem_listed holds.known holds.heard)
  | gone => exact later (.inr rfl)

end Holds

end Standing

end History

open Standing

mutual

/-- What is well formed leaves nobody waiting who was not waiting before. -/
theorem Episode.follow {h s : History α} {σ : Standing α} :
    Episode initial h s → Fair id (h ++ s) → σ.Holds initial id h → σ.Endures s →
      ∃ τ : Standing α, τ.Holds initial id (h ++ s) ∧ σ.Later τ
  | .nil, _, holds, _ => ⟨σ, by simpa using holds, .refl σ⟩
  | @Episode.registered _ _ _ c s new call rest, fair, holds, endures => by
    have next := (Fair.of_append fair).next_iff
    have fairRest : Fair id (h ++ .registered h.registered.length :: c ++ s) := by simpa using fair
    have fairCall : Fair id (h ++ [.registered h.registered.length] ++ c) := by
      simpa using fairRest.of_append
    by_cases own : h.registered.length = id
    · -- Whoever is registered now has been absent, and is told the value at once.
      obtain rfl := holds.absent_of_new fun known => Nat.ne_of_gt (next.1 known) own
      have waits := holds.registered (own ▸ new)
      obtain ⟨σ', told, settled, -⟩ := call.follow fairCall (own ▸ waits) (fun _ => rfl)
        fun other => (other own).elim
      obtain ⟨τ, holds', later⟩ := rest.follow fairRest (by simpa using told)
        (.of_settled (settled own))
      exact ⟨τ, by simpa using holds', later.settled (settled own)⟩
    · have aside := holds.note (o := .registered h.registered.length) rfl nofun
        (by simpa using own) nofun
      obtain ⟨σ', holds', -, later⟩ := call.follow fairCall aside (fun same => (own same).elim)
        fun _ => endures.mono (by simp)
      obtain ⟨τ, holds'', later'⟩ := rest.follow fairRest (by simpa using holds')
        ((endures.mono (by simp)).later (later own))
      exact ⟨τ, by simpa using holds'', (later own).trans later'⟩
  | @Episode.committed _ _ _ t s v turns rest, fair, holds, endures => by
    have fairRest : Fair id (h ++ .committed (h.stored.length + 1) v :: t ++ s) := by
      simpa using fair
    have fairPass : Fair id (h ++ [.committed (h.stored.length + 1) v] ++ t) := by
      simpa using fairRest.of_append
    have before := Fair.of_append fair
    have settled : σ.Settled := by
      cases σ with
      | awaiting => exact endures.2 (h.stored.length + 1) v (by simp)
      | absent | abreast | gone => trivial
    obtain ⟨σ', holds', told, later⟩ := turns.follow fairPass (holds.changed settled _ _)
      before.ordered (holds.turning settled before _ _)
    have passes := holds.passed settled before told later
    obtain ⟨τ, holds'', later'⟩ := rest.follow fairRest (by simpa using holds')
      (.of_settled (passes.settled settled))
    exact ⟨τ, by simpa using holds'', passes.trans later'⟩
  | @Episode.silenced _ _ _ _ j known new rest, fair, holds, endures => by
    obtain ⟨σ', hushed, later⟩ := holds.silence known new endures
    have delisted := hushed.note (o := .delisted j) rfl nofun nofun nofun
    obtain ⟨τ, holds', later'⟩ := rest.follow (by simpa using fair) (by simpa using delisted)
      ((endures.mono (by simp)).later later)
    exact ⟨τ, by simpa using holds', later.trans later'⟩
  | .stuck known new rest, fair, holds, endures => by
    obtain ⟨σ', hushed, later⟩ := holds.silence known new endures
    obtain ⟨τ, holds', later'⟩ := rest.follow (by simpa using fair) hushed
      ((endures.mono (by simp)).later later)
    exact ⟨τ, by simpa using holds', later.trans later'⟩

theorem Call.follow {pass : Option Nat} {j : Nat} {v : α} {h c : History α} {σ : Standing α} :
    Call initial pass j v h c → Fair id (h ++ c) → σ.Holds initial id h →
      (j = id → σ = awaiting pass v) → (j ≠ id → σ.Endures c) →
      ∃ τ : Standing α, τ.Holds initial id (h ++ c) ∧ (j = id → τ.Settled) ∧ (j ≠ id → σ.Later τ)
  | .returned (s := s) name inner, fair, holds, turn, endures => by
    obtain ⟨σ', begun, endures', becomes⟩ :=
      holds.begun turn (fun other => (endures other).mono (t := s) fun o ho => by simp [ho]) name
    obtain ⟨τ, holds', later⟩ := inner.follow (Fair.of_append (s := [.returned pass j])
      (by simpa using fair)) begun endures'
    exact ⟨τ, by simpa using holds'.note (o := .returned pass j) rfl nofun nofun nofun,
      becomes τ later⟩
  | .faulted (s := s) name inner, fair, holds, turn, endures => by
    obtain ⟨σ', begun, endures', becomes⟩ :=
      holds.begun turn (fun other => (endures other).mono (t := s) fun o ho => by simp [ho]) name
    obtain ⟨τ, holds', later⟩ := inner.follow (Fair.of_append (s := [.faulted pass j])
      (by simpa using fair)) begun endures'
    exact ⟨τ, by simpa using holds'.note (o := .faulted pass j) rfl nofun nofun nofun,
      becomes τ later⟩

/-- A pass tells its value to whoever waits for it. -/
theorem Turns.follow {number : Nat} {v : α} {ids : List Nat} {h t : History α} {σ : Standing α} :
    Turns initial number v ids h t → Fair id (h ++ t) → σ.Holds initial id h →
      ids.Pairwise (· < ·) → σ.Turning number v id ids →
      ∃ τ : Standing α, τ.Holds initial id (h ++ t) ∧ (id ∈ ids → τ.Settled) ∧
        (id ∉ ids ∨ σ = gone → σ.Later τ)
  | .nil, _, holds, _, _ => ⟨σ, by simpa using holds, by simp, fun _ => .refl σ⟩
  | @Turns.called _ _ _ j _ ids _ c t on call rest, fair, holds, ordered, turning => by
    have fairRest : Fair id (h ++ c ++ t) := by simpa using fair
    have ordered' := ordered.of_cons
    have out (own : j = id) : id ∉ ids := fun again =>
      Nat.lt_irrefl j (List.rel_of_pairwise_cons ordered (own ▸ again))
    -- In its own turn the subscriber is told; in the turn of another one nothing is changed.
    obtain ⟨σ', holds', settled, later⟩ := call.follow fairRest.of_append holds
      (fun own => holds.awaits (own ▸ turning) (own ▸ on))
      fun other => turning.endures ordered other call fairRest.of_append.undisturbed
    have turning' : σ'.Turning number v id ids := by
      by_cases own : j = id
      · exact .of_settled (settled own) (out own)
      · exact (turning.tail own).later (later own)
    obtain ⟨τ, holds'', told, later'⟩ := rest.follow fairRest holds' ordered' turning'
    refine ⟨τ, by simpa using holds'', fun turn => ?_, fun now => ?_⟩
    · by_cases own : j = id
      · exact (later' (.inl (out own))).settled (settled own)
      · exact told ((List.mem_cons.1 turn).resolve_left (Ne.symm own))
    · have other : j ≠ id := by
        rintro rfl
        rcases now with now | rfl
        · simp at now
        · exact on holds.silenced
      refine (later other).trans (later' (now.imp (fun now there => ?_) fun gone => ?_))
      · exact now (List.mem_cons_of_mem j there)
      · subst gone
        exact later other
  | @Turns.passedOver _ _ _ j _ ids _ _ off rest, fair, holds, ordered, turning => by
    have ordered' := ordered.of_cons
    have aside := holds.note (o := .passedOver number j) rfl nofun nofun nofun
    have turning' : σ.Turning number v id ids := by
      by_cases own : j = id
      · subst own
        obtain rfl := holds.gone_of_silenced turning off
        trivial
      · exact turning.tail own
    obtain ⟨τ, holds', told, later⟩ := rest.follow (by simpa using fair) aside ordered' turning'
    refine ⟨τ, by simpa using holds', fun turn => ?_, fun out => later (out.imp_left ?_)⟩
    · rcases List.mem_cons.1 turn with rfl | turn
      · obtain rfl := holds.gone_of_silenced turning off
        exact (later (.inr rfl)).settled trivial
      · exact told turn
    · exact fun out there => out (List.mem_cons_of_mem j there)

end

/-! ## In the middle of things -/

/-- Whoever waits does so in the middle of a call of an earlier subscriber. -/
def History.Standing.Waits (id : Nat) (h : History α) : Standing α → Prop
  | awaiting pass _ => pass.isSome = true ∧ ∃ j ∈ h.calling, j < id
  | absent | abreast | gone => True

namespace History.Standing.Waits

variable {h s : History α} {σ τ : Standing α}

theorem of_settled (settled : σ.Settled) : σ.Waits id h := by
  cases σ with
  | awaiting => exact settled.elim
  | absent | abreast | gone => trivial

theorem endures (waits : σ.Waits id h) (balanced : Balanced s)
    (u : (h ++ s).Undisturbed id) : σ.Endures s := by
  cases σ with
  | awaiting =>
    obtain ⟨pass, j, called, early⟩ := waits
    exact ⟨pass, balanced.not_committed u called early⟩
  | absent | abreast | gone => trivial

theorem later (waits : σ.Waits id h) (later : σ.Later τ)
    (still : ∀ j ∈ h.calling, j ∈ s.calling) : τ.Waits id s := by
  cases σ with
  | awaiting =>
    rcases later with rfl | rfl
    · obtain ⟨pass, j, called, early⟩ := waits
      exact ⟨pass, j, still j called, early⟩
    · trivial
  | gone =>
    cases later
    trivial
  | absent | abreast => exact .of_settled later

/-- When something is changed nobody waits. -/
theorem settled {number : Nat} {v : α} (waits : σ.Waits id h)
    (u : (h ++ .committed number v :: s).Undisturbed id) : σ.Settled := by
  cases σ with
  | awaiting =>
    obtain ⟨-, j, called, early⟩ := waits
    exact Nat.not_le_of_lt early (u h s number v rfl j called)
  | absent | abreast | gone => trivial

end History.Standing.Waits

/-- Wherever an action may begin, nobody waits but in the middle of a call of an earlier
    subscriber. -/
theorem Underway.follow {h : History α} (underway : Underway initial h) (fair : Fair id h) :
    ∃ σ : Standing α, σ.Holds initial id h ∧ σ.Waits id h := by
  induction underway with
  -- A fresh subscriber stands nowhere, and nobody is being called.
  | start => exact ⟨absent, ⟨by simp, rfl⟩, trivial⟩
  | @further h s _ episode ih =>
    obtain ⟨σ, holds, waits⟩ := ih fair.of_append
    obtain ⟨τ, holds', later⟩ :=
      episode.follow fair holds (waits.endures episode.balanced fair.undisturbed)
    refine ⟨τ, holds', waits.later later fun j called => ?_⟩
    rwa [episode.balanced.calling]
  | @first h name _ unheard ih =>
    obtain ⟨σ, holds, waits⟩ := ih fair.of_append
    rw [List.append_cons]
    -- Either it is `id` that is registered, and its first call makes it abreast, or somebody later.
    by_cases own : h.registered.length = id
    · have new : .registered id ∉ h := fun known =>
        Nat.ne_of_gt (fair.of_append.next_iff.1 known) own
      obtain rfl := holds.absent_of_new new
      have registered := holds.registered (own ▸ unheard)
      exact ⟨abreast, own ▸ registered.called name, trivial⟩
    · have aside := holds.note (o := .registered h.registered.length) rfl nofun
        (by simpa using own) nofun
      refine ⟨σ, aside.elsewhere own none name _, waits.later (.refl σ) fun j called => ?_⟩
      simp [calling_append, hold, called]
  | @turn h t v early late j name _ listed turns on ih =>
    have fairPass : Fair id (h ++ [.committed (h.stored.length + 1) v] ++ t) := by
      simpa using fair.of_append
    have before : Fair id h := by simpa using fairPass.of_append.of_append
    obtain ⟨σ, holds, waits⟩ := ih before
    have settled := waits.settled fair.of_append.undisturbed
    -- The pass has the turns of `early` behind it; what is left of it has to reach `id`.
    have turning := holds.turning settled before (h.stored.length + 1) v
    have ordered := before.ordered
    rw [listed] at turning ordered
    obtain ⟨σ', holds', told, later⟩ := turns.follow fairPass (holds.changed settled _ _)
      (List.pairwise_append.1 ordered).1 (turning.first ordered)
    have turning' := turning.rest ordered told later
    rw [← List.append_cons] at holds'
    by_cases own : j = id
    · subst own
      obtain rfl := holds'.awaits turning' on
      exact ⟨abreast, holds'.called name, trivial⟩
    · refine ⟨σ', holds'.elsewhere own _ name v, ?_⟩
      cases σ' with
      | awaiting pass w =>
        have early := turning'.early (List.pairwise_append.1 ordered).2.1 own
        obtain ⟨rfl, -⟩ := turning'
        exact ⟨rfl, j, by simp [calling_append, hold], early⟩
      | absent | abreast | gone => trivial

end LiveState
