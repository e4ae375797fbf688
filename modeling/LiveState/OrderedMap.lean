/-!
# Ordered maps

A map that remembers the order in which its keys came in.  Giving a present key a new value
keeps the key's place; a new key goes to the end; taking a key out keeps the order of the rest.
-/

namespace LiveState

/-- Keys with their values, in the order in which the keys came in. -/
structure OrderedMap (κ β : Type) where
  entries : List (κ × β)

namespace OrderedMap

variable {κ β : Type}

def empty : OrderedMap κ β := ⟨[]⟩

instance : Inhabited (OrderedMap κ β) := ⟨empty⟩

def keys (m : OrderedMap κ β) : List κ := m.entries.map (·.1)

def size (m : OrderedMap κ β) : Nat := m.entries.length

variable [DecidableEq κ]

def get? (m : OrderedMap κ β) (k : κ) : Option β :=
  (m.entries.find? (·.1 = k)).map (·.2)

def contains (m : OrderedMap κ β) (k : κ) : Bool := m.entries.any (·.1 = k)

/-- `put es k v` gives `k` the value `v`: in its place if `es` has `k`, else at the end. -/
def put (k : κ) (v : β) : List (κ × β) → List (κ × β)
  | [] => [(k, v)]
  | e :: es => if e.1 = k then (k, v) :: es else e :: put k v es

def insert (m : OrderedMap κ β) (k : κ) (v : β) : OrderedMap κ β := ⟨put k v m.entries⟩

def erase (m : OrderedMap κ β) (k : κ) : OrderedMap κ β :=
  ⟨m.entries.filter fun e => !decide (e.1 = k)⟩

/-- The map that the pairs build up from left to right: a repeated key keeps its first place
    and its last value. -/
def ofList (pairs : List (κ × β)) : OrderedMap κ β :=
  pairs.foldl (fun m e => m.insert e.1 e.2) empty

/-! ## What the operations do to a look-up -/

@[simp] theorem get?_empty (k : κ) : (empty : OrderedMap κ β).get? k = none := rfl

theorem find?_put_self (k : κ) (v : β) (es : List (κ × β)) :
    (put k v es).find? (·.1 = k) = some (k, v) := by
  induction es with
  | nil => simp [put]
  | cons e es ih =>
    by_cases h : e.1 = k
    · simp [put, h]
    · simp [put, h, ih]

theorem find?_put_of_ne {k j : κ} (h : j ≠ k) (v : β) (es : List (κ × β)) :
    (put k v es).find? (·.1 = j) = es.find? (·.1 = j) := by
  induction es with
  | nil => simp [put, Ne.symm h]
  | cons e es ih =>
    by_cases hk : e.1 = k
    · have hj : ¬ e.1 = j := fun he => h (he.symm.trans hk)
      simp [put, hk, Ne.symm h]
    · by_cases hj : e.1 = j
      · simp [put, hj, h]
      · simp [put, hk, hj, ih]

@[simp] theorem get?_insert_self (m : OrderedMap κ β) (k : κ) (v : β) :
    (m.insert k v).get? k = some v := by
  simp [get?, insert, find?_put_self]

theorem get?_insert_of_ne {k j : κ} (h : j ≠ k) (m : OrderedMap κ β) (v : β) :
    (m.insert k v).get? j = m.get? j := by
  simp [get?, insert, find?_put_of_ne h]

@[simp] theorem get?_erase_self (m : OrderedMap κ β) (k : κ) : (m.erase k).get? k = none := by
  simp [get?, erase]

theorem get?_erase_of_ne {k j : κ} (h : j ≠ k) (m : OrderedMap κ β) :
    (m.erase k).get? j = m.get? j := by
  have kept (es : List (κ × β)) :
      (es.filter fun e => !decide (e.1 = k)).find? (·.1 = j) = es.find? (·.1 = j) := by
    induction es with
    | nil => rfl
    | cons e es ih => by_cases hk : e.1 = k <;> by_cases hj : e.1 = j <;> simp_all
  simp [get?, erase, kept]

theorem get?_of_get?_erase {m : OrderedMap κ β} {k j : κ} {v : β}
    (h : (m.erase k).get? j = some v) : m.get? j = some v := by
  by_cases same : j = k
  · rw [same, get?_erase_self] at h
    cases h
  · rwa [get?_erase_of_ne same] at h

theorem get?_insert_cases {m : OrderedMap κ β} {k j : κ} {v u : β}
    (h : (m.insert k v).get? j = some u) : j = k ∧ v = u ∨ m.get? j = some u := by
  by_cases same : j = k
  · rw [same, get?_insert_self, Option.some.injEq] at h
    exact .inl ⟨same, h⟩
  · rw [get?_insert_of_ne same] at h
    exact .inr h

theorem mem_keys {m : OrderedMap κ β} {k : κ} : k ∈ m.keys ↔ ∃ v, m.get? k = some v := by
  have found (es : List (κ × β)) :
      k ∈ es.map (·.1) ↔ ∃ v, (es.find? (·.1 = k)).map (·.2) = some v := by
    induction es with
    | nil => simp
    | cons e es ih =>
      by_cases h : e.1 = k
      · simp [h]
      · have other : ¬ k = e.1 := fun same => h same.symm
        simpa [h, other] using ih
  exact found m.entries

theorem contains_iff {m : OrderedMap κ β} {k : κ} : m.contains k = true ↔ k ∈ m.keys := by
  simp [contains, keys]

theorem get?_eq_some_iff {m : OrderedMap κ β} (distinct : m.keys.Nodup) {k : κ} {v : β} :
    m.get? k = some v ↔ (k, v) ∈ m.entries := by
  have found (es : List (κ × β)) (distinct : (es.map (·.1)).Nodup) :
      (es.find? (·.1 = k)).map (·.2) = some v ↔ (k, v) ∈ es := by
    induction es with
    | nil => simp
    | cons e es ih =>
      obtain ⟨fresh, rest⟩ := List.nodup_cons.1 distinct
      by_cases h : e.1 = k
      · -- The entry is the one that is found, and there is no other.
        have alone : (k, v) ∉ es := fun there => fresh (List.mem_map.2 ⟨_, there, h.symm⟩)
        simp [h, alone, Prod.ext_iff, eq_comm]
      · have other : ¬ (k, v) = e := fun same => h (same ▸ rfl)
        simpa [h, other] using ih rest
  exact found m.entries distinct

/-! ## What the operations do to the order -/

theorem keys_insert (m : OrderedMap κ β) (k : κ) (v : β) :
    (m.insert k v).keys = if k ∈ m.keys then m.keys else m.keys ++ [k] := by
  have placed (es : List (κ × β)) : (put k v es).map (·.1) =
      if k ∈ es.map (·.1) then es.map (·.1) else es.map (·.1) ++ [k] := by
    induction es with
    | nil => simp [put]
    | cons e es ih =>
      by_cases hk : e.1 = k
      · simp [put, hk]
      · by_cases there : k ∈ es.map (·.1)
        · rw [if_pos there] at ih
          simp [put, hk, ih, there]
        · rw [if_neg there] at ih
          simp [put, hk, ih, there, Ne.symm hk]
  exact placed m.entries

theorem keys_erase (m : OrderedMap κ β) (k : κ) :
    (m.erase k).keys = m.keys.filter fun j => !decide (j = k) := by
  simp [erase, keys, List.filter_map, Function.comp_def]

end OrderedMap

end LiveState
