import LiveState.Proofs.Registry.Linear
import LiveState.Proofs.Registry.Stays

/-! # Membership

As long as a registry is changed only by mounting kinds and taking them out, what is mounted, in
which order and with which handles is told by the ledger of its journal.
-/

namespace LiveState.Registry.Scenario

open Course

variable {η : Type} {catalog : Catalog (Step η) η}

/-! ## Who has made a handle -/

/-- Whether a line tells of the call of a factory. -/
def Line.isBuilt : Line η → Bool
  | .happened (.built _ _) => true
  | _ => false

/-- How many calls of factories these lines tell of. -/
def builds (lines : List (Line η)) : Nat := lines.countP Line.isBuilt

/-- After `lines` the factory of `key` has just made `handle`: its call is the innermost one that is
    under way.  The call was noted right after `earlier`, and its number counts the calls up to and
    including it. -/
def Makes (catalog : Catalog (Step η) η) (earlier lines : List (Line η)) (key : String)
    (handle : η) : Prop :=
  ∃ factory meanwhile total calls, catalog.get? key = some factory ∧
    handle = factory.make (builds earlier + 1) ∧
    lines = earlier ++ Line.built key (builds earlier + 1) :: meanwhile ∧
    Regular catalog lines total ((key, builds earlier + 1) :: calls)

theorem Ledger.operations_enter (l : Ledger η) (line : Line η) :
    (l.enter line).operations = l.operations ∨
      ∃ number m, line = .committed number m ∧
        (l.enter line).operations = l.operations ++ [.leadingTo m l.announced] := by
  unfold Ledger.enter
  split
  · exact .inl rfl
  · exact .inl rfl
  · exact .inr ⟨_, _, rfl, rfl⟩
  · exact .inl rfl

theorem Ledger.operations_added (lines : List (Line η)) (key : String) (handle : η)
    (number : Nat) (m : Resolved η) :
    (ofLines (lines ++ [.adding key, .committed number (m.insert key handle)])).operations =
      (ofLines lines).operations ++ [.put key handle] := by
  rw [← List.singleton_append, ← List.append_assoc, ofLines_snoc, ofLines_snoc]
  show _ ++ [Operation.leadingTo _ (some (.adding key))] = _
  rw [Operation.leadingTo_insert]
  rfl

theorem announced_of_leadingTo {m : Resolved η} {a : Option Announcement} {key : String}
    {handle : η} (led : Operation.leadingTo m a = .put key handle) : ∃ k, a = some (.adding k) := by
  rcases a with _ | k | k
  · cases led
  · exact ⟨k, rfl⟩
  · cases led

namespace Regular

variable {lines : List (Line η)} {total : Nat} {calls : List (String × Nat)}

theorem builds_eq (h : Regular catalog lines total calls) : builds lines = total := by
  induction h with
  | nil => rfl
  | @line lines _ _ line _ admitted ih =>
    have other : line.isBuilt = false := by
      cases line with
      | happened what => cases what <;> first | rfl | exact admitted.elim
      | began | did | inner => rfl
    simpa [builds, List.countP_append, List.countP_cons, other] using ih
  | called _ _ ih =>
    simpa [builds, List.countP_append, List.countP_cons, Line.isBuilt, Line.built] using ih
  | broken _ ih => exact ih
  | refused _ ih | added _ _ ih =>
    simpa [builds, List.countP_append, List.countP_cons, Line.isBuilt, Line.adding,
      Line.committed] using ih

theorem built_of_mem (h : Regular catalog lines total calls) {key : String} {number : Nat}
    (under : (key, number) ∈ calls) :
    ∃ earlier meanwhile, lines = earlier ++ Line.built key number :: meanwhile ∧
      number = builds earlier + 1 := by
  induction h with
  | nil => simp at under
  | called before found ih =>
    rcases List.mem_cons.1 under with same | under
    · cases same
      exact ⟨_, [], rfl, by rw [before.builds_eq]⟩
    · obtain ⟨earlier, meanwhile, rfl, counted⟩ := ih under
      exact ⟨earlier, meanwhile ++ [_], by simp; rfl, counted⟩
  | broken _ ih => exact ih (List.mem_cons_of_mem _ under)
  | line _ _ ih =>
    obtain ⟨earlier, meanwhile, rfl, counted⟩ := ih under
    exact ⟨earlier, meanwhile ++ [_], by simp; rfl, counted⟩
  | refused _ ih | added _ _ ih =>
    obtain ⟨earlier, meanwhile, rfl, counted⟩ := ih (List.mem_cons_of_mem _ under)
    exact ⟨earlier, meanwhile ++ _, by simp; rfl, counted⟩

/-- Whatever was mounted was announced and mounted in one, by the call that had made it. -/
theorem made (h : Regular catalog lines total calls) {before after : List (Operation η)}
    {key : String} {handle : η}
    (split : (Ledger.ofLines lines).operations = before ++ .put key handle :: after) :
    ∃ earlier first number m rest,
      lines = first ++ .adding key :: .committed number m :: rest ∧
        (Ledger.ofLines first).operations = before ∧ Makes catalog earlier first key handle := by
  -- Unless it was the last operation, it was mounted in the lines before.
  induction h generalizing after with
  | nil => simp [Ledger.ofLines] at split
  | @line lines _ _ line _ admitted ih =>
    rw [Ledger.ofLines_snoc] at split
    rcases Ledger.operations_enter (Ledger.ofLines lines) line with same | ⟨number, m, rfl, added⟩
    · rw [same] at split
      obtain ⟨earlier, first, number, m, rest, rfl, here⟩ := ih split
      exact ⟨earlier, first, number, m, rest ++ [line], by simp, here⟩
    · rw [added] at split
      rcases List.eq_nil_or_concat after with rfl | ⟨after, o, rfl⟩
      · -- A kind that was not announced is not mounted by this line.
        have put := List.append_inj_right' split rfl
        obtain ⟨k, announced⟩ := announced_of_leadingTo (List.cons.inj put).1
        exact absurd announced (admitted.2.1 k)
      · rw [List.concat_eq_append, ← List.cons_append, ← List.append_assoc] at split
        obtain ⟨earlier, first, k, m', rest, rfl, here⟩ := ih (List.append_inj_left' split rfl)
        exact ⟨earlier, first, k, m', rest ++ [_], by simp; rfl, here⟩
  | called _ _ ih =>
    rw [Ledger.ofLines_snoc] at split
    obtain ⟨earlier, first, number, m, rest, rfl, here⟩ := ih split
    exact ⟨earlier, first, number, m, rest ++ [_], by simp; rfl, here⟩
  | broken _ ih => exact ih split
  | refused _ ih =>
    rw [Ledger.ofLines_snoc] at split
    obtain ⟨earlier, first, number, m, rest, rfl, here⟩ := ih split
    exact ⟨earlier, first, number, m, rest ++ [_], by simp; rfl, here⟩
  | @added lines total calls k number factory under found ih =>
    rw [Ledger.operations_added] at split
    rcases List.eq_nil_or_concat after with rfl | ⟨after, o, rfl⟩
    · obtain ⟨same, put⟩ := List.append_inj' split rfl
      cases put
      obtain ⟨earlier, meanwhile, rfl, rfl⟩ := under.built_of_mem List.mem_cons_self
      exact ⟨earlier, _, _, _, [], rfl, same, factory, meanwhile, total, calls, found, rfl, rfl,
        under⟩
    · rw [List.concat_eq_append, ← List.cons_append, ← List.append_assoc] at split
      obtain ⟨earlier, first, k', m', rest, rfl, here⟩ := ih (List.append_inj_left' split rfl)
      exact ⟨earlier, first, k', m', rest ++ [_, _], by simp; exact ⟨rfl, rfl⟩, here⟩

end Regular

/-! ## Worlds -/

/-- What is mounted in a world is told by its ledger. -/
structure World.FollowsHistory (catalog : Catalog (Step η) η) (w : World η) : Prop where
  distinct : w.registry.resolved.value.keys.Nodup
  known : ∀ key ∈ w.registry.resolved.value.keys, catalog.contains key = true
  /-- A kind is there if and only if the last operation on it has mounted it. -/
  mounted : ∀ key, key ∈ w.registry.resolved.value.keys ↔ Mounted key w.ledger.operations
  /-- A kind that is there has been there since some operation, and since one only. -/
  stays : ∀ key ∈ w.registry.resolved.value.keys, ∃ before,
    StaysSince key before w.ledger.operations ∧
      ∀ before', StaysSince key before' w.ledger.operations → before' = before
  /-- One kind stands before another if and only if its stay began earlier. -/
  precedes : ∀ key key' before before', StaysSince key before w.ledger.operations →
    StaysSince key' before' w.ledger.operations →
      ([key, key'].Sublist w.registry.resolved.value.keys ↔ before.length < before'.length)
  /-- A kind has the handle that the last operation on it has mounted, and this one was made by the
      call of the factory that was answered by this operation. -/
  handle : ∀ key handle, w.registry.resolved.value.get? key = some handle →
    ∃ before after earlier first number m rest,
      w.ledger.operations = before ++ .put key handle :: after ∧
        (∀ o ∈ after, o.key? ≠ some key) ∧
        w.journal.toList = first ++ .adding key :: .committed number m :: rest ∧
        (Ledger.ofLines first).operations = before ∧ Makes catalog earlier first key handle

theorem World.Linear.followsHistory {w : World η} (h : w.Linear catalog)
    (kindwise : Kindwise w.ledger.operations) : w.FollowsHistory catalog := by
  obtain ⟨calls, calling⟩ := h.calling
  -- The ledger tells which operation has mounted a handle; the journal around it tells who made it.
  have made {key : String} {handle : η} (got : w.registry.resolved.value.get? key = some handle) :
      ∃ before after earlier first number m rest,
        w.ledger.operations = before ++ .put key handle :: after ∧
          (∀ o ∈ after, o.key? ≠ some key) ∧
          w.journal.toList = first ++ .adding key :: .committed number m :: rest ∧
          (Ledger.ofLines first).operations = before ∧
          Makes catalog earlier first key handle := by
    rw [h.value_eq] at got
    obtain ⟨before, after, split, others⟩ := split_of_lastOn ((get?_replay kindwise).1 got)
    obtain ⟨earlier, first, number, m, rest, here⟩ := Regular.made calling split
    exact ⟨before, after, earlier, first, number, m, rest, split, others, here⟩
  refine ⟨?_, fun key there => ?_, fun key => ?_, fun key there => ?_,
    fun key key' before before' stays stays' => ?_, fun key handle got => made got⟩
  · rw [h.value_eq]
    exact nodup_keys_replay kindwise
  · obtain ⟨handle, got⟩ := OrderedMap.mem_keys.1 there
    obtain ⟨_, _, _, _, _, _, _, -, -, -, -, factory, _, _, _, found, -⟩ := made got
    exact OrderedMap.contains_iff.2 (OrderedMap.mem_keys.2 ⟨factory, found⟩)
  · rw [h.value_eq]
    exact mem_keys_replay kindwise
  · rw [h.value_eq, mem_keys_replay kindwise, mounted_iff_staysSince kindwise] at there
    obtain ⟨before, stays⟩ := there
    exact ⟨before, stays, fun before' stays' => stays'.unique kindwise stays⟩
  · rw [h.value_eq]
    exact precedes_iff kindwise stays stays'

section

variable [Text.Describe η]

/-- The answers about what is mounted all speak of the same entries. -/
def World.AnswersAlike (w : World η) : Prop :=
  ∀ budget,
    let answer (action : Action (Step η) η) :=
      (((language η).exec (budget + 1) (.act action)).perform w).1
    let entries := w.registry.resolved.value.entries
    answer .list = .ok (.registry (.entries ⟨entries⟩)) ∧
    (∀ key, ∃ found : Option η, answer (.get key) = .ok (.registry (.handle found)) ∧
      ∀ handle, found = some handle ↔ (key, handle) ∈ entries) ∧
    (∀ key, ∃ there : Bool, answer (.contains key) = .ok (.registry (.flag there)) ∧
      (there = true ↔ ∃ handle, (key, handle) ∈ entries)) ∧
    answer .size = .ok (.registry (.count entries.length)) ∧
    answer .isEmpty = .ok (.registry (.flag entries.isEmpty))

theorem World.FollowsHistory.answersAlike {w : World η} (h : w.FollowsHistory catalog) :
    w.AnswersAlike := by
  refine fun budget => ⟨rfl, fun key => ⟨_, rfl, fun handle => ?_⟩, fun key => ⟨_, rfl, ?_⟩, rfl,
    ?_⟩
  · exact OrderedMap.get?_eq_some_iff h.distinct
  · show w.registry.resolved.value.contains key = true ↔ _
    rw [OrderedMap.contains_iff, OrderedMap.mem_keys]
    exact exists_congr fun handle => OrderedMap.get?_eq_some_iff h.distinct
  · show Except.ok (Reply.registry (Answer.flag
      (w.registry.resolved.value.entries.length == 0))) = _
    cases w.registry.resolved.value.entries <;> rfl

/-- Whenever a step begins, at whatever depth, and at the end of a run, if the mapping has been
    changed only by mounting kinds and taking them out, the mounted kinds are distinct and known,
    and a kind is there if and only if the last operation on it has mounted it.  The kinds stand in
    the order in which their stays began, whenever they were mounted again or asked for, and each
    has the handle that was made by the call of its factory which the last operation on it has
    answered.  Every answer about what is mounted speaks of the same entries. -/
theorem membership_follows_history (catalog : Catalog (Step η) η) (budget : Nat)
    (steps : List (Step η)) :
    (language η).Throughout
      (fun w => Kindwise w.ledger.operations → w.FollowsHistory catalog ∧ w.AnswersAlike)
      budget steps (World.start catalog) := by
  have start : (World.start catalog).Linear catalog := ⟨rfl, rfl, rfl, [], .nil⟩
  refine pursues.throughout (fun w linear kindwise => ?_) budget (fun _ _ => trivial) start
  have follows := linear.followsHistory kindwise
  exact ⟨follows, follows.answersAlike⟩

/-- A kind that is mounted again keeps its place; one that was taken out comes last. -/
example :
    let catalog : Catalog (Step String) String := .ofList
      [("a", .labelled "a" none none []), ("b", .labelled "b" none none [])]
    let mount := [.act (.add "b"), .act (.add "a"), .act (.add "b")]
    (run catalog mount).2.registry.resolved.value.keys = ["b", "a"] ∧
      (run catalog (mount ++ [.act (.remove "b"), .act (.add "b")])).2.registry.resolved.value.keys =
        ["a", "b"] := by
  decide +kernel

end

end LiveState.Registry.Scenario
