import Mathlib.Data.List.Basic
import LiveState.Proofs.Observable.Following
import LiveState.Proofs.Observable.Passes
import LiveState.Proofs.Observable.Voices

/-! # The latest value

Subscribers are told every change in the order of the changes, as long as nothing is changed while an
earlier subscriber is called.  So what they were told last is the current value.
-/

namespace LiveState

open History

variable {α σ : Type} {initial : α} {id : Nat}

/-! ## Numbers -/

theorem Segment.changes_ordered {own : Nat → List Nat} {h s : History α}
    (segment : Segment initial own h s) : ((changes s).map (·.1)).Pairwise (· < ·) := by
  have numbered a number v b split := (segment.pass a number v b split).1
  clear segment
  -- From the front; the numbers go on from those of the changes before.
  suffices ((changes s).map (·.1)).Pairwise (· < ·) ∧
      ∀ c ∈ changes s, h.stored.length < c.1 from this.1
  induction s generalizing h with
  | nil => simp [changes]
  | cons o s ih =>
    obtain ⟨ordered, above⟩ := ih (h := h ++ [o]) fun a number v b split => by
      simpa using numbered (o :: a) number v b (by rw [split]; rfl)
    cases o with
    | committed number v =>
      have first : number = h.stored.length + 1 := by simpa using numbered [] number v s rfl
      have next (c : Nat × α) (hc : c ∈ changes s) : number < c.1 := by
        simpa [stored?, ← first] using above c hc
      refine ⟨List.pairwise_cons.2 ⟨fun k hk => ?_, ordered⟩, fun c hc => ?_⟩
      · obtain ⟨c, hc, rfl⟩ := List.mem_map.1 hk
        exact next c hc
      · rcases List.mem_cons.1 hc with rfl | hc
        · exact Nat.lt_of_succ_le (Nat.le_of_eq first.symm)
        · exact Nat.lt_trans (Nat.lt_of_succ_le (Nat.le_of_eq first.symm)) (next c hc)
    | _ => exact ⟨ordered, fun c hc => Nat.lt_of_le_of_lt (stored_length_le h _) (above c hc)⟩

theorem Turns.turn_of_mem {number : Nat} {v : α} {ids : List Nat} {h t : History α} :
    Turns initial number v ids h t → id ∈ ids →
      .called (some number) id v ∈ t ∨ .passedOver number id ∈ t
  | .nil, turn => by simp at turn
  | .called on call rest, turn => by
    rcases List.mem_cons.1 turn with rfl | turn
    · exact .inl (List.mem_append_left _ (by cases call <;> simp))
    · exact (rest.turn_of_mem turn).imp (List.mem_append_right _) (List.mem_append_right _)
  | .passedOver off rest, turn => by
    rcases List.mem_cons.1 turn with rfl | turn
    · exact .inr List.mem_cons_self
    · exact (rest.turn_of_mem turn).imp (List.mem_cons_of_mem _) (List.mem_cons_of_mem _)

/-- A history is fair to a subscriber if nothing disturbs the calls of the earlier ones. -/
theorem History.Agrees.fair {o : Observable α (Listener σ α)} {h : History α}
    (agrees : Agrees initial o h) (orderly : Orderly [] h) (u : h.Undisturbed id) : Fair id h :=
  ⟨u, orderly, by rw [← agrees.nextId, List.length_range]⟩

theorem History.Fair.registered_once {pre post : History α}
    (fair : Fair id (pre ++ .registered id :: post)) :
    .registered id ∉ pre ∧ .registered id ∉ post := by
  have once : (registered pre ++ id :: registered post).Nodup := by
    have all : (registered (pre ++ .registered id :: post)).Nodup :=
      fair.numbered ▸ List.nodup_range
    rw [registered, List.filterMap_append] at all
    exact all
  have apart := (List.nodup_cons.1 (List.perm_middle.nodup_iff.1 once)).1
  exact ⟨fun again => apart (List.mem_append_left _ (mem_registered.2 again)),
    fun again => apart (List.mem_append_right _ (mem_registered.2 again))⟩

/-! ## What a subscriber has been told -/

theorem Answered.mem_deliveries {s : History α} (answered : Answered s) {pass : Option Nat} {v : α}
    (called : .called pass id v ∈ s) : (pass, v) ∈ deliveries id s := by
  obtain ⟨a, b, rfl⟩ := List.append_of_mem called
  obtain ⟨name, later, rfl⟩ := answered.heard_of_called rfl
  rw [deliveries_append a (s := .called pass id v :: .heard name v :: later) nofun]
  simp [deliveries]

theorem History.telling_injective : Function.Injective (telling : Nat × α → Option Nat × α) := by
  rintro ⟨number, v⟩ ⟨number', v'⟩ same
  simpa [telling] using same

/-- What subscriber `id`, registered after `pre`, has been told: `told`, but not what it `missed`. -/
structure History.Told (initial : α) (id : Nat) (pre post : History α)
    (told missed : List (Nat × α)) : Prop where
  /-- It receives the value current at its registration, and then changes. -/
  calls : deliveries id (pre ++ .registered id :: post) =
    (none, pre.current initial) :: told.map telling
  /-- These are all that were made while it was active, once each, but for what it missed. -/
  changes : told ++ missed = (whileActive id post).changes
  increasing : ((told ++ missed).map (·.1)).Pairwise (· < ·)
  /-- Nothing is missed but the very last of them, if it was silenced before its turn. -/
  few : missed.length ≤ 1
  passedOver : ∀ c ∈ missed, .silenced id ∈ post ∧ .passedOver c.1 id ∈ post

/-- Whatever is due that was not the first call is a change. -/
theorem History.Owes.told {pre post : History α} {missed : List (Nat × α)}
    (owes : Owes initial id pre post (missed.map telling)) :
    ∃ told : List (Nat × α), deliveries id (pre ++ .registered id :: post) =
      (none, pre.current initial) :: told.map telling ∧
        told ++ missed = (whileActive id post).changes := by
  rw [Owes] at owes
  rcases calls : deliveries id (pre ++ .registered id :: post) with _ | ⟨first, others⟩ <;>
    rw [calls] at owes
  · -- Then the first call would be due, which tells no change.
    cases missed with
    | nil => simp at owes
    | cons c missed => simp [telling] at owes
  · obtain ⟨rfl, rest⟩ := List.cons.inj owes
    obtain ⟨told, missed', all, rfl, same⟩ := List.append_eq_map_iff.1 rest
    obtain rfl := List.map_injective_iff.2 telling_injective same
    exact ⟨told, rfl, all.symm⟩

/-- A subscriber that misses a change made while it was active is passed over by its pass. -/
theorem Episode.passedOver {pre post : History α} {number : Nat} {v : α}
    (episode : Episode initial [] (pre ++ .registered id :: post))
    (fair : Fair id (pre ++ .registered id :: post))
    (made : (number, v) ∈ (whileActive id post).changes)
    (untold : (some number, v) ∉ deliveries id (pre ++ .registered id :: post)) :
    .passedOver number id ∈ post := by
  have committed : .committed number v ∈ whileActive id post := by
    obtain ⟨o, ho, same⟩ := List.mem_filterMap.1 made
    cases o <;> cases same
    exact ho
  obtain ⟨x, y, active⟩ := List.append_of_mem committed
  obtain ⟨z, rest⟩ : whileActive id post <+: post := List.takeWhile_prefix _
  rw [active, List.append_assoc, List.cons_append] at rest
  have on : .silenced id ∉ pre ++ .registered id :: x := by
    -- Before its registration nobody was silenced, and after it not yet.
    have before : .silenced id ∉ pre := fun off =>
      fair.registered_once.1 (fair.of_append.orderly.registered_of_silenced off)
    have after : .silenced id ∉ x := fun off =>
      not_silenced_whileActive post (active ▸ List.mem_append_left _ off)
    simp [before, after]
  have split : pre ++ .registered id :: post =
      pre ++ .registered id :: x ++ .committed number v :: (y ++ z) := by
    rw [← rest]
    simp
  have early : Fair id (pre ++ .registered id :: x) := Fair.of_append (split ▸ fair)
  obtain ⟨-, -, t, later, after, turns⟩ := episode.segment.pass _ number v _ split
  have inside : t ⊆ post := by
    rw [← rest, after]
    intro o ho
    simp [ho]
  have turn : id ∈ listed ([] ++ (pre ++ .registered id :: x)) := early.mem_listed (by simp) on
  refine (turns.turn_of_mem turn).elim (fun called => absurd ?_ untold) (inside ·)
  refine episode.answered.mem_deliveries ?_
  exact List.mem_append_right _ (List.mem_cons_of_mem _ (inside called))

/-- Whoever is registered is told every change in the order of the changes. -/
theorem Episode.told {pre post : History α}
    (episode : Episode initial [] (pre ++ .registered id :: post))
    (fair : Fair id (pre ++ .registered id :: post)) :
    ∃ told missed, Told initial id pre post told missed := by
  obtain ⟨σ, holds, settled⟩ := episode.follow fair (σ := Standing.absent) ⟨by simp, rfl⟩ trivial
  obtain ⟨before, after⟩ := fair.registered_once
  -- Nothing is due to whoever is abreast of the changes; whoever is gone may have missed one.
  have owes : ∃ missed : List (Nat × α), missed.length ≤ 1 ∧
      Owes initial id pre post (missed.map telling) ∧ (missed ≠ [] → .silenced id ∈ post) := by
    cases σ with
    | absent => exact absurd (by simp) holds.1
    | awaiting => exact settled.elim
    | abreast =>
      obtain ⟨pre', post', split, on, owes⟩ := holds
      obtain ⟨rfl, -, rfl⟩ := (List.append_cons_inj_of_notMem before after).1 split
      exact ⟨[], Nat.zero_le 1, owes, by simp⟩
    | gone =>
      obtain ⟨pre', post', missed, split, off, few, owes⟩ := holds
      obtain ⟨rfl, -, rfl⟩ := (List.append_cons_inj_of_notMem before after).1 split
      exact ⟨missed, few, owes, fun _ => off⟩
  obtain ⟨missed, few, owes, off⟩ := owes
  obtain ⟨told, calls, all⟩ := owes.told
  have ordered : ((told ++ missed).map (·.1)).Pairwise (· < ·) := by
    have active : (whileActive id post).Sublist (pre ++ .registered id :: post) :=
      (List.takeWhile_sublist _).trans ((List.sublist_cons_self _ _).trans
        (List.sublist_append_right _ _))
    rw [all]
    exact episode.segment.changes_ordered.sublist ((active.filterMap change?).map _)
  refine ⟨told, missed, calls, all, ordered, few, fun c hc => ⟨off (List.ne_nil_of_mem hc), ?_⟩⟩
  refine episode.passedOver fair (all ▸ List.mem_append_right told hc) fun called => ?_
  -- No number is both among those that were told and among those that were missed.
  rw [calls] at called
  obtain ⟨d, hd, same⟩ := List.mem_map.1 ((List.mem_cons.1 called).resolve_left nofun)
  obtain rfl : d = c := telling_injective same
  rw [List.map_append] at ordered
  exact Nat.lt_irrefl d.1 ((List.pairwise_append.1 ordered).2.2 d.1 (List.mem_map_of_mem hd) d.1
    (List.mem_map_of_mem hc))

/-- Whenever an action may begin and no call is in progress, whoever is active has been told the
    current value last. -/
theorem History.Ready.last_told {o : Observable α (Listener σ α)} {h : History α}
    (ready : Ready initial o h)
    (u : h.Undisturbed id) (idle : h.calling = []) (active : o.isActive id = true) :
    ((deliveries id h).getLast?).map (·.2) = some o.value := by
  obtain ⟨σ, holds, waits⟩ :=
    ready.underway.follow (ready.toAgrees.fair ready.underway.orderly u)
  obtain ⟨known, on⟩ := (ready.active id).1 active
  cases σ with
  | absent => exact absurd known holds.1
  | awaiting =>
    obtain ⟨-, j, called, -⟩ := waits
    simp [idle] at called
  | gone => exact absurd holds.silenced on
  | abreast =>
    obtain ⟨pre, post, rfl, -, owes⟩ := holds
    rw [ready.value]
    exact owes.current_told fun off => on (by simp [off])

namespace Observable.Scenario

open Course

variable {n : Nat} [Text.Describe α]

/-- Values arrive in the order of the changes.  If nothing changes the value while a subscriber is
    called that was registered earlier, the first value that a subscriber receives is the one current
    at its registration.  Then it receives every change that is made while it is active, once each
    and in their order; only the very last of them may be missed, if the subscriber is silenced
    before its turn.  So whenever a step begins, at whatever depth, and at the end of a run, if no
    call is in progress, the last value that an active subscriber has received is the current one,
    whatever the subscriber itself and those after it have done.  What is received is what the
    subscriber's own script is heard with, in a call of the subscriber. -/
theorem values_arrive_in_order (values : Vector α n) (steps : List (Step α)) (i : Fin n) :
    (∀ (pre post : History α) (id : Nat),
      (run values steps).2.history i = pre ++ .registered id :: post →
        ((run values steps).2.history i).Undisturbed id →
          ∃ told missed, Told (values.get i) id pre post told missed) ∧
    (run values steps).2.Voiced i ∧
    (language n α).Throughout
      (fun w => (w.history i).calling = [] →
        ∀ id, (w.history i).Undisturbed id → w[i].isActive id = true →
          (((w.history i).deliveries id).getLast?).map (·.2) = some w[i].value)
      (stepsWeight steps) steps (World.start values) := by
  obtain ⟨agrees, episode⟩ := run_chronicle values steps i
  refine ⟨fun pre post id split u => ?_, run_voiced values steps i, ?_⟩
  · rw [split] at agrees episode u
    exact episode.told (agrees.fair episode.orderly u)
  · refine (heeds_chronicle i (values.get i)).throughout (fun w ready idle id u active => ?_) _
      (fun _ _ => trivial) (start_agrees values i)
    exact ready.last_told u idle active

/-- When the first subscriber answers `b` with `c`, the second one is told `c` before `b`. -/
example :
    let answer : Rule (Step String) String := ⟨(· == "b"), 1, [.act 0 (.set "c")]⟩
    let h := (run #v["a"] [.act 0 (.subscribe "first" [answer]), .act 0 (.subscribe "second" []),
      .act 0 (.set "b")]).2.history 0
    h.deliveries 0 = [(none, "a"), (some 1, "b"), (some 2, "c")] ∧
      h.deliveries 1 = [(none, "a"), (some 2, "c"), (some 1, "b")] := by
  decide +kernel

end Observable.Scenario

end LiveState
