import LiveState.Json.Basic

/-! # Sorted fields

What is found among fields after a change, and that sorted fields are determined by what is found
among them.
-/

namespace LiveState.Json.Fields

variable {fs gs : Fields} {k j : String} {v u : Json}

/-! ## Look-ups -/

theorem get?_cons (f : String × Json) (fs : Fields) (k : String) :
    get? (f :: fs) k = if f.1 = k then some f.2 else fs.get? k := by
  by_cases h : f.1 = k <;> simp [get?, h]

theorem get?_append (fs gs : Fields) (k : String) :
    get? (fs ++ gs) k = (fs.get? k).or (gs.get? k) := by
  simp [get?, List.find?_append, Option.map_or]

theorem mem_of_get? (h : fs.get? k = some v) : (k, v) ∈ fs := by
  obtain ⟨f, found, rfl⟩ := Option.map_eq_some_iff.1 h
  have same : f.1 = k := by simpa using List.find?_some found
  subst same
  exact List.mem_of_find?_eq_some found

theorem get?_map (g : Json → Json) (fs : Fields) (k : String) :
    get? (fs.map fun f => (f.1, g f.2)) k = (fs.get? k).map g := by
  induction fs with
  | nil => rfl
  | cons f fs ih =>
    rw [List.map_cons, get?_cons, get?_cons, ih]
    split <;> rfl

theorem get?_insert_self : (insert k v fs).get? k = some v := by
  induction fs with
  | nil => simp [insert, get?_cons]
  | cons f fs ih =>
    simp only [insert]
    split
    · simp [get?_cons]
    · next notBefore =>
      split
      · simp [get?_cons]
      · next other => rw [get?_cons, if_neg (Ne.symm other), ih]

theorem get?_insert_of_ne (h : j ≠ k) : (insert k v fs).get? j = fs.get? j := by
  induction fs with
  | nil => simp [insert, get?_cons, Ne.symm h]
  | cons f fs ih =>
    simp only [insert]
    split
    · rw [get?_cons, if_neg (Ne.symm h)]
    · split
      · next same =>
        rw [get?_cons, get?_cons, if_neg (Ne.symm h), if_neg (same ▸ Ne.symm h)]
      · rw [get?_cons, get?_cons, ih]

theorem get?_erase_self : (fs.erase k).get? k = none := by
  induction fs with
  | nil => rfl
  | cons f fs ih =>
    by_cases h : f.1 = k
    · rw [erase, List.filter_cons_of_neg (by simp [h])]
      exact ih
    · rw [erase, List.filter_cons_of_pos (by simp [h]), get?_cons, if_neg h]
      exact ih

theorem get?_erase_of_ne (h : j ≠ k) : (fs.erase k).get? j = fs.get? j := by
  induction fs with
  | nil => rfl
  | cons f fs ih =>
    by_cases here : f.1 = k
    · rw [erase, List.filter_cons_of_neg (by simp [here]), get?_cons, here, if_neg (Ne.symm h)]
      exact ih
    · rw [erase, List.filter_cons_of_pos (by simp [here]), get?_cons, get?_cons]
      exact congrArg _ ih

theorem get?_insertIfNew (fs : Fields) (k : String) (v : Json) (j : String) :
    (insertIfNew k v fs).get? j = (fs.get? j).or (get? [(k, v)] j) := by
  rw [insertIfNew, get?_cons]
  by_cases same : k = j
  · subst same
    cases here : fs.get? k with
    | some u => simp [here]
    | none => simp [get?_insert_self]
  · have nothing : get? [] j = none := rfl
    rw [if_neg same, nothing, Option.or_none]
    split
    · rfl
    · exact get?_insert_of_ne (Ne.symm same)

theorem get?_backfill_eq (fs defaults : Fields) (k : String) :
    (fs.backfill defaults).get? k = (fs.get? k).or (defaults.get? k) := by
  induction defaults generalizing fs with
  | nil => simp [backfill, get?]
  | cons d defaults ih =>
    have one : get? (d :: defaults) k = (get? [d] k).or (get? defaults k) :=
      get?_append [d] defaults k
    rw [one, ← Option.or_assoc, ← get?_insertIfNew]
    exact ih _

theorem get?_backfill (there : fs.get? k = some v) (defaults : Fields) :
    (fs.backfill defaults).get? k = some v := by
  rw [get?_backfill_eq, there]
  rfl

/-! ## Sorted fields -/

/-- The names grow. -/
def Sorted (fs : Fields) : Prop := fs.Pairwise fun f g => f.1 < g.1

theorem Sorted.tail {f : String × Json} (h : Sorted (f :: fs)) : Sorted fs :=
  (List.pairwise_cons.1 h).2

theorem Sorted.map (h : Sorted fs) (g : Json → Json) : Sorted (fs.map fun f => (f.1, g f.2)) :=
  List.pairwise_map.2 h

theorem Sorted.lt_of_get? {f : String × Json} (h : Sorted (f :: fs)) (found : fs.get? k = some v) :
    f.1 < k :=
  (List.pairwise_cons.1 h).1 (k, v) (mem_of_get? found)

theorem Sorted.get?_head {f : String × Json} (h : Sorted (f :: fs)) : fs.get? f.1 = none := by
  cases found : fs.get? f.1 with
  | none => rfl
  | some v => exact absurd (h.lt_of_get? found) (String.lt_irrefl _)

theorem mem_insert {f : String × Json} (h : f ∈ insert k v fs) : f = (k, v) ∨ f ∈ fs := by
  induction fs with
  | nil => exact .inl (List.mem_singleton.1 h)
  | cons g fs ih =>
    simp only [insert] at h
    split at h
    · exact List.mem_cons.1 h
    · split at h
      · exact (List.mem_cons.1 h).imp_right (List.mem_cons_of_mem g)
      · rcases List.mem_cons.1 h with rfl | h
        · exact .inr List.mem_cons_self
        · exact (ih h).imp_right (List.mem_cons_of_mem g)

theorem Sorted.insert (h : Sorted fs) (k : String) (v : Json) : Sorted (insert k v fs) := by
  induction fs with
  | nil => exact List.pairwise_singleton ..
  | cons g fs ih =>
    obtain ⟨least, rest⟩ := List.pairwise_cons.1 h
    simp only [Fields.insert]
    split
    · next before =>
      refine List.pairwise_cons.2 ⟨fun f hf => ?_, h⟩
      rcases List.mem_cons.1 hf with rfl | hf
      · exact before
      · exact String.lt_trans before (least f hf)
    · next notBefore =>
      split
      · next same => exact List.pairwise_cons.2 ⟨same ▸ least, rest⟩
      · next other =>
        refine List.pairwise_cons.2 ⟨fun f hf => ?_, ih rest⟩
        rcases mem_insert hf with rfl | hf
        · -- The order is total.
          refine Classical.byContradiction fun notAfter => other ?_
          exact String.le_antisymm (String.not_lt.1 notAfter) (String.not_lt.1 notBefore)
        · exact least f hf

theorem Sorted.erase (h : Sorted fs) (k : String) : Sorted (fs.erase k) :=
  List.Pairwise.filter _ h

theorem Sorted.insertIfNew (h : Sorted fs) (k : String) (v : Json) :
    Sorted (insertIfNew k v fs) := by
  simp only [Fields.insertIfNew]
  split
  · exact h
  · exact h.insert k v

theorem Sorted.backfill (h : Sorted fs) (defaults : Fields) : Sorted (fs.backfill defaults) := by
  induction defaults generalizing fs with
  | nil => exact h
  | cons d defaults ih => exact ih (h.insertIfNew d.1 d.2)

/-- Sorted fields are what is found among them. -/
theorem Sorted.ext (hf : Sorted fs) (hg : Sorted gs) (h : ∀ k, fs.get? k = gs.get? k) :
    fs = gs := by
  induction fs generalizing gs with
  | nil =>
    cases gs with
    | nil => rfl
    | cons g gs =>
      have found := h g.1
      rw [get?_cons, if_pos rfl] at found
      cases found
  | cons f fs ih =>
    cases gs with
    | nil =>
      have found := h f.1
      rw [get?_cons, if_pos rfl] at found
      cases found
    | cons g gs =>
      -- Each of the two least names is found on the other side, so that neither is less.
      have first : f.1 = g.1 := by
        refine Classical.byContradiction fun ne => ?_
        have ahead := h f.1
        have behind := h g.1
        rw [get?_cons, get?_cons, if_pos rfl, if_neg (Ne.symm ne)] at ahead
        rw [get?_cons, get?_cons, if_neg ne, if_pos rfl] at behind
        exact String.lt_asymm (hg.lt_of_get? ahead.symm) (hf.lt_of_get? behind)
      have value : f.2 = g.2 := by
        have found := h f.1
        rw [get?_cons, get?_cons, if_pos rfl, if_pos first.symm] at found
        exact Option.some.inj found
      have rest : fs = gs := by
        refine ih hf.tail hg.tail fun k => ?_
        by_cases here : f.1 = k
        · rw [← here, hf.get?_head, first, hg.get?_head]
        · have found := h k
          rwa [get?_cons, get?_cons, if_neg here, if_neg (first ▸ here)] at found
      rw [rest, Prod.ext first value]

/-! ## Members in the order of a text -/

theorem get?_foldl_insert (ms : List (String × Json)) (fs : Fields) (k : String) :
    (ms.foldl (fun fs f => insert f.1 f.2 fs) fs).get? k = (get? ms.reverse k).or (fs.get? k) := by
  induction ms generalizing fs with
  | nil => simp [get?]
  | cons m ms ih =>
    -- Seen from the end, the first member comes last.
    rw [List.foldl_cons, ih, List.reverse_cons, get?_append, Option.or_assoc]
    congr 1
    by_cases same : m.1 = k
    · subst same
      rw [get?_insert_self, get?_cons, if_pos rfl]
      rfl
    · rw [get?_insert_of_ne (Ne.symm same), get?_cons, if_neg same]
      rfl

theorem sorted_foldl_insert (ms : List (String × Json)) (h : Sorted fs) :
    Sorted (ms.foldl (fun fs f => insert f.1 f.2 fs) fs) := by
  induction ms generalizing fs with
  | nil => exact h
  | cons m ms ih => exact ih (h.insert m.1 m.2)

theorem sorted_ofMembers (ms : List (String × Json)) : Sorted (ofMembers ms) :=
  sorted_foldl_insert ms .nil

/-- Of a repeated name the last member counts. -/
theorem get?_ofMembers (ms : List (String × Json)) (k : String) :
    (ofMembers ms).get? k = get? ms.reverse k := by
  rw [ofMembers, get?_foldl_insert]
  simp [get?]

theorem mem_ofMembers {ms : List (String × Json)} {f : String × Json} (h : f ∈ ofMembers ms) :
    f ∈ ms := by
  -- The members are put in from the left, into fields that grow.
  suffices ∀ fs : Fields, f ∈ ms.foldl (fun fs f => insert f.1 f.2 fs) fs → f ∈ fs ∨ f ∈ ms from
    (this [] h).resolve_left (by simp)
  clear h
  induction ms with
  | nil => exact fun fs h => .inl h
  | cons m ms ih =>
    intro fs h
    rcases ih _ h with h | h
    · rcases mem_insert h with rfl | h
      · exact .inr List.mem_cons_self
      · exact .inl h
    · exact .inr (List.mem_cons_of_mem m h)

theorem Sorted.get?_reverse (h : Sorted fs) (k : String) : get? fs.reverse k = fs.get? k := by
  induction fs with
  | nil => rfl
  | cons f fs ih =>
    rw [List.reverse_cons, get?_append, ih h.tail, get?_cons, get?_cons]
    by_cases here : f.1 = k
    · rw [if_pos here, if_pos here, ← here, h.get?_head]
      rfl
    · rw [if_neg here, if_neg here]
      exact Option.or_none

theorem Sorted.get?_of_mem (h : Sorted fs) {f : String × Json} (hf : f ∈ fs) :
    fs.get? f.1 = some f.2 := by
  induction fs with
  | nil => cases hf
  | cons g fs ih =>
    rw [get?_cons]
    rcases List.mem_cons.1 hf with rfl | hf
    · rw [if_pos rfl]
    · rw [if_neg fun same => String.lt_irrefl _ (same ▸ (List.pairwise_cons.1 h).1 f hf),
        ih h.tail hf]

theorem Sorted.ofMembers_eq (h : Sorted fs) : ofMembers fs = fs :=
  (sorted_ofMembers fs).ext h fun k => (get?_ofMembers fs k).trans (h.get?_reverse k)

end LiveState.Json.Fields
