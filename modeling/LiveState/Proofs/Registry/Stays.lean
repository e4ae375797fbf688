import Mathlib.Data.List.Induction
import LiveState.Proofs.Registry.Ledger

/-! # Stays

What a list of operations on kinds makes of the mapping.  A kind is there if the last operation on
it has mounted it.  Its stay began with the operation that mounted it when it was absent, and the
kinds stand in the order in which their stays began.
-/

namespace LiveState.Registry.Scenario

variable {η : Type} {ops before : List (Operation η)} {key : String} {handle : η}

/-- The kind that an operation mounts or takes out. -/
def Operation.key? : Operation η → Option String
  | .put key _ | .drop key => some key
  | .replace _ => none

/-- Every operation mounts a kind or takes one out. -/
def Kindwise (ops : List (Operation η)) : Prop := ∀ m, .replace m ∉ ops

/-- The last operation on a kind. -/
def lastOn (key : String) (ops : List (Operation η)) : Option (Operation η) :=
  ops.reverse.find? (·.key? = some key)

/-- The last operation on a kind has mounted it. -/
def Mounted (key : String) (ops : List (Operation η)) : Prop :=
  ∃ handle, lastOn key ops = some (.put key handle)

/-- The operation that follows on `before` has mounted a kind that was absent, and the kind has not
    been taken out since. -/
def StaysSince (key : String) (before ops : List (Operation η)) : Prop :=
  ∃ handle after, ops = before ++ .put key handle :: after ∧ ¬ Mounted key before ∧
    .drop key ∉ after

theorem kindwise_snoc {o : Operation η} :
    Kindwise (ops ++ [o]) ↔ Kindwise ops ∧ ∀ m, o ≠ .replace m := by
  simp only [Kindwise, List.mem_append, List.mem_singleton, not_or, forall_and, ne_comm (a := o),
    ne_eq]

/-! ## The last operation on a kind -/

@[simp] theorem lastOn_snoc (o : Operation η) :
    lastOn key (ops ++ [o]) = if o.key? = some key then some o else lastOn key ops := by
  simp only [lastOn, List.reverse_append, List.reverse_singleton, List.singleton_append,
    List.find?_cons]
  split <;> simp_all

theorem mounted_snoc_put {k : String} :
    Mounted key (ops ++ [.put k handle]) ↔ k = key ∨ Mounted key ops := by
  by_cases same : k = key <;> simp [Mounted, Operation.key?, same]

theorem mounted_snoc_drop {k : String} :
    Mounted key (ops ++ [.drop k]) ↔ k ≠ key ∧ Mounted key ops := by
  by_cases same : k = key <;> simp [Mounted, Operation.key?, same]

theorem split_of_lastOn {o : Operation η} (last : lastOn key ops = some o) :
    ∃ before after, ops = before ++ o :: after ∧ ∀ x ∈ after, x.key? ≠ some key := by
  obtain ⟨-, later, earlier, split, others⟩ := List.find?_eq_some_iff_append.1 last
  refine ⟨earlier.reverse, later.reverse, ?_, fun x hx => ?_⟩
  · rw [← List.reverse_reverse ops, split]
    simp
  · simpa using others x (List.mem_reverse.1 hx)

/-! ## Who is there -/

/-- A kind has the handle that the last operation on it has mounted, if it has mounted one. -/
theorem get?_replay (kindwise : Kindwise ops) :
    (replay ops).get? key = some handle ↔ lastOn key ops = some (.put key handle) := by
  induction ops using List.reverseRecOn with
  | nil => simp [replay, lastOn]
  | append_singleton ops o ih =>
    obtain ⟨earlier, other⟩ := kindwise_snoc.1 kindwise
    rw [replay_snoc, lastOn_snoc]
    cases o with
    | replace m => exact absurd rfl (other m)
    | put k h =>
      rw [(Operation.apply_put k h _).get?_eq]
      by_cases same : k = key
      · simp [Operation.key?, same]
      · simpa [Operation.key?, same, Ne.symm same] using ih earlier
    | drop k =>
      rw [(Operation.apply_drop k _).get?_eq]
      by_cases same : k = key
      · simp [Operation.key?, same]
      · simpa [Operation.key?, same, Ne.symm same] using ih earlier

theorem mem_keys_replay (kindwise : Kindwise ops) :
    key ∈ (replay ops).keys ↔ Mounted key ops := by
  simp only [OrderedMap.mem_keys, get?_replay kindwise]
  rfl

theorem nodup_keys_replay (kindwise : Kindwise ops) : (replay ops).keys.Nodup := by
  induction ops using List.reverseRecOn with
  | nil => exact List.nodup_nil
  | append_singleton ops o ih =>
    obtain ⟨earlier, other⟩ := kindwise_snoc.1 kindwise
    rw [replay_snoc]
    cases o with
    | replace m => exact absurd rfl (other m)
    | put k h =>
      rw [(Operation.apply_put k h _).keys_eq]
      split
      · exact ih earlier
      · next absent =>
        -- A kind that comes in at the end was not there before.
        refine List.nodup_append.2 ⟨ih earlier, by simp, fun a ha b hb same => absent ?_⟩
        rw [← List.mem_singleton.1 hb, ← same]
        exact ha
    | drop k =>
      rw [(Operation.apply_drop k _).keys_eq]
      exact (ih earlier).filter _

/-! ## Since when -/

theorem staysSince_snoc_put {k : String} :
    StaysSince key before (ops ++ [.put k handle]) ↔
      StaysSince key before ops ∨ k = key ∧ before = ops ∧ ¬ Mounted key ops := by
  constructor
  · rintro ⟨h, after, split, absent, kept⟩
    rcases List.eq_nil_or_concat after with rfl | ⟨after, o, rfl⟩
    · obtain ⟨rfl, same⟩ := List.append_inj' split rfl
      cases same
      exact .inr ⟨rfl, rfl, absent⟩
    · rw [List.concat_eq_append, ← List.cons_append, ← List.append_assoc] at split
      obtain ⟨rfl, -⟩ := List.append_inj' split rfl
      exact .inl ⟨h, after, rfl, absent, fun there => kept (by simp [there])⟩
  · rintro (⟨h, after, rfl, absent, kept⟩ | ⟨rfl, rfl, absent⟩)
    · exact ⟨h, after ++ [.put k handle], by simp, absent, by simpa using kept⟩
    · exact ⟨handle, [], rfl, absent, by simp⟩

theorem staysSince_snoc_drop {k : String} :
    StaysSince key before (ops ++ [.drop k]) ↔ k ≠ key ∧ StaysSince key before ops := by
  constructor
  · rintro ⟨h, after, split, absent, kept⟩
    rcases List.eq_nil_or_concat after with rfl | ⟨after, o, rfl⟩
    · obtain ⟨-, same⟩ := List.append_inj' split rfl
      cases same
    · rw [List.concat_eq_append, ← List.cons_append, ← List.append_assoc] at split
      obtain ⟨rfl, same⟩ := List.append_inj' split rfl
      cases same
      have kept : .drop key ∉ after ∧ ¬ key = k := by simpa using kept
      exact ⟨Ne.symm kept.2, h, after, rfl, absent, kept.1⟩
  · rintro ⟨other, h, after, rfl, absent, kept⟩
    exact ⟨h, after ++ [.drop k], by simp, absent, by simp [kept, Ne.symm other]⟩

theorem StaysSince.length_lt (stays : StaysSince key before ops) : before.length < ops.length := by
  obtain ⟨h, after, rfl, -, -⟩ := stays
  simp

/-- A kind is there if and only if it has been there since some operation. -/
theorem mounted_iff_staysSince (kindwise : Kindwise ops) :
    Mounted key ops ↔ ∃ before, StaysSince key before ops := by
  induction ops using List.reverseRecOn with
  | nil => simp [Mounted, lastOn, StaysSince]
  | append_singleton ops o ih =>
    obtain ⟨earlier, other⟩ := kindwise_snoc.1 kindwise
    cases o with
    | replace m => exact absurd rfl (other m)
    | put k h =>
      simp only [mounted_snoc_put, staysSince_snoc_put, exists_or, ← ih earlier]
      by_cases there : Mounted key ops <;> simp [there]
    | drop k => simp only [mounted_snoc_drop, staysSince_snoc_drop, exists_and_left, ih earlier]

theorem StaysSince.unique {b b' : List (Operation η)} (kindwise : Kindwise ops)
    (h : StaysSince key b ops) (h' : StaysSince key b' ops) : b = b' := by
  induction ops using List.reverseRecOn with
  | nil =>
    obtain ⟨_, _, split, -⟩ := h
    simp at split
  | append_singleton ops o ih =>
    obtain ⟨earlier, other⟩ := kindwise_snoc.1 kindwise
    have mounted {b : List (Operation η)} (stays : StaysSince key b ops) : Mounted key ops :=
      (mounted_iff_staysSince earlier).2 ⟨b, stays⟩
    cases o with
    | replace m => exact absurd rfl (other m)
    | put k handle =>
      -- The last operation begins the stay only if the kind was absent.
      rcases staysSince_snoc_put.1 h with h | ⟨-, rfl, absent⟩ <;>
        rcases staysSince_snoc_put.1 h' with h' | ⟨-, rfl, absent'⟩
      · exact ih earlier h h'
      · exact absurd (mounted h) absent'
      · exact absurd (mounted h') absent
      · rfl
    | drop k =>
      exact ih earlier (staysSince_snoc_drop.1 h).2 (staysSince_snoc_drop.1 h').2

/-- The kinds stand in the order in which their stays began. -/
theorem pairwise_keys_replay (kindwise : Kindwise ops) :
    (replay ops).keys.Pairwise fun k k' =>
      ∀ b b', StaysSince k b ops → StaysSince k' b' ops → b.length < b'.length := by
  induction ops using List.reverseRecOn with
  | nil => exact List.Pairwise.nil
  | append_singleton ops o ih =>
    obtain ⟨earlier, other⟩ := kindwise_snoc.1 kindwise
    rw [replay_snoc]
    cases o with
    | replace m => exact absurd rfl (other m)
    | put k h =>
      rw [(Operation.apply_put k h _).keys_eq]
      -- For those that were there nothing has begun.
      have old {k' : String} {b : List (Operation η)} (there : k' ∈ (replay ops).keys)
          (stays : StaysSince k' b (ops ++ [.put k h])) : StaysSince k' b ops :=
        (staysSince_snoc_put.1 stays).resolve_right fun new =>
          new.2.2 ((mem_keys_replay earlier).1 there)
      have among := (ih earlier).imp_of_mem fun {k₁ k₂} h₁ h₂ before b b' s s' =>
        before b b' (old h₁ s) (old h₂ s')
      split
      · exact among
      · next absent =>
        refine List.pairwise_append.2 ⟨among, List.pairwise_singleton _ _, ?_⟩
        intro k₁ there k₂ hk₂ b b' s s'
        rw [List.mem_singleton.1 hk₂] at s'
        rcases staysSince_snoc_put.1 s' with s' | ⟨-, rfl, -⟩
        · exact absurd ((mem_keys_replay earlier).2
            ((mounted_iff_staysSince earlier).2 ⟨_, s'⟩)) absent
        · exact (old there s).length_lt
    | drop k =>
      rw [(Operation.apply_drop k _).keys_eq]
      exact ((ih earlier).filter _).imp fun before b b' s s' =>
        before b b' (staysSince_snoc_drop.1 s).2 (staysSince_snoc_drop.1 s').2

theorem pair_sublist_or_of_mem {α : Type} {l : List α} {k k' : α} (h : k ∈ l) (h' : k' ∈ l)
    (other : k ≠ k') : [k, k'].Sublist l ∨ [k', k].Sublist l := by
  induction l with
  | nil => simp at h
  | cons x l ih =>
    rcases List.mem_cons.1 h with rfl | later <;> rcases List.mem_cons.1 h' with rfl | later'
    · exact absurd rfl other
    · exact .inl (.cons_cons _ (List.singleton_sublist.2 later'))
    · exact .inr (.cons_cons _ (List.singleton_sublist.2 later))
    · exact (ih later later').imp (.cons _) (.cons _)

/-- One kind stands before another if and only if its stay began earlier. -/
theorem precedes_iff {k k' : String} {b b' : List (Operation η)} (kindwise : Kindwise ops)
    (stays : StaysSince k b ops) (stays' : StaysSince k' b' ops) :
    [k, k'].Sublist (replay ops).keys ↔ b.length < b'.length := by
  have ordered {k k' : String} (precedes : [k, k'].Sublist (replay ops).keys) :=
    List.pairwise_iff_forall_sublist.1 (pairwise_keys_replay kindwise) precedes
  refine ⟨fun precedes => ordered precedes b b' stays stays', fun earlier => ?_⟩
  have there {k : String} {b : List (Operation η)} (stays : StaysSince k b ops) :
      k ∈ (replay ops).keys :=
    (mem_keys_replay kindwise).2 ((mounted_iff_staysSince kindwise).2 ⟨b, stays⟩)
  have other : k ≠ k' := by
    rintro rfl
    rw [stays.unique kindwise stays'] at earlier
    exact Nat.lt_irrefl _ earlier
  refine (pair_sublist_or_of_mem (there stays) (there stays') other).resolve_right fun follows => ?_
  exact Nat.lt_asymm earlier (ordered follows b' b stays' stays)

end LiveState.Registry.Scenario
