import LiveState.Json.Parser
import LiveState.Proofs.Json.Fields
import LiveState.Proofs.Json.Number

/-! # The form of values

What is read from a text is nested at most so deep, its fields are sorted, and its whole numbers
are as large as they may be.
-/

namespace LiveState.Json

/-- The form of values that are read: they are nested at most so deep, fields are sorted, and
    whole numbers fit. -/
inductive Formed : Nat → Json → Prop where
  | null {d : Nat} : Formed d .null
  | bool {d : Nat} (b : Bool) : Formed d (.bool b)
  | int {d : Nat} {n : Int} (exact : IsExact n) : Formed d (.int n)
  | float {d : Nat} (x : Float) : Formed d (.float x)
  | str {d : Nat} (s : String) : Formed d (.str s)
  | arr {d : Nat} {items : List Json} (h : ∀ v ∈ items, Formed d v) : Formed (d + 1) (.arr items)
  | obj {d : Nat} {fields : List (String × Json)} (sorted : Fields.Sorted fields)
      (h : ∀ f ∈ fields, Formed d f.2) : Formed (d + 1) (.obj fields)

/-- All numbers in a value are whole numbers. -/
inductive Whole : Json → Prop where
  | null : Whole .null
  | bool (b : Bool) : Whole (.bool b)
  | int (n : Int) : Whole (.int n)
  | str (s : String) : Whole (.str s)
  | arr {items : List Json} (h : ∀ v ∈ items, Whole v) : Whole (.arr items)
  | obj {fields : List (String × Json)} (h : ∀ f ∈ fields, Whole f.2) : Whole (.obj fields)

theorem Whole.elements {items : List Json} : Whole (.arr items) → ∀ v ∈ items, Whole v
  | .arr h => h

theorem Whole.members {fields : List (String × Json)} :
    Whole (.obj fields) → ∀ f ∈ fields, Whole f.2
  | .obj h => h

/-! ## Numbers -/

variable {v : Json} {s rest : List Char} {d : Nat}

theorem gather_lt {n : Nat} (h : n < UInt64.size) (ds : List Char) :
    (gather n ds).1 < UInt64.size := by
  induction ds generalizing n with
  | nil => exact h
  | cons c ds ih =>
    simp only [gather]
    split
    · next fits => exact ih fits
    · exact h

theorem eq_float_of_scaled? {negative : Bool} {n : Nat} {e : Int}
    (h : scaled? negative n e = some v) : ∃ x, v = .float x := by
  obtain ⟨x, -, rfl⟩ := Option.map_eq_some_iff.1 h
  exact ⟨_, rfl⟩

theorem formed_of_value? {p : NumberParts} (h : p.value? = some v) : Formed d v := by
  have fits : (gather 0 p.whole).1 < 0x10000000000000000 := gather_lt (by decide) p.whole
  simp only [NumberParts.value?] at h
  split at h
  -- A whole number stays one unless it does not fit.
  · next left =>
    split at h
    · cases h
      exact .int ⟨by omega, by omega⟩
    · split at h
      · cases h
        exact .float _
      · next bounds =>
        cases h
        exact .int ⟨by omega, by omega⟩
  · obtain ⟨x, rfl⟩ := eq_float_of_scaled? h
    exact .float x

theorem formed_of_unsigned {negative : Bool} (h : unsigned negative s = some (v, rest)) :
    Formed d v := by
  simp only [unsigned, Option.bind_eq_bind, Option.bind_eq_some_iff] at h
  obtain ⟨⟨whole, t⟩, -, ⟨fraction, t⟩, -, ⟨exponent, t⟩, -, u, value, ends⟩ := h
  cases ends
  exact formed_of_value? value

theorem formed_of_number (h : number s = some (v, rest)) : Formed d v := by
  unfold number at h
  split at h
  · exact formed_of_unsigned h
  · exact formed_of_unsigned h

theorem formed_of_scalar (h : scalar s = some (v, rest)) : Formed d v := by
  unfold scalar at h
  split at h
  · cases h
    exact .null
  · cases h
    exact .bool true
  · cases h
    exact .bool false
  · obtain ⟨p, -, ends⟩ := Option.map_eq_some_iff.1 h
    cases ends
    exact .str p.1
  · exact formed_of_number h

/-! ## Arrays and objects -/

variable {read : List Char → Option (Json × List Char)} {P : Json → Prop}

theorem forall_of_elements (h : ∀ s v rest, read s = some (v, rest) → P v) {fuel : Nat}
    {vs : List Json} (found : elements read fuel s = some (vs, rest)) : ∀ v ∈ vs, P v := by
  induction fuel generalizing s vs with
  | zero => cases found
  | succ fuel ih =>
    simp only [elements, Option.bind_eq_bind, Option.bind_eq_some_iff] at found
    obtain ⟨⟨v, t⟩, first, found⟩ := found
    have good := h _ v t first
    split at found
    · obtain ⟨⟨ws, u⟩, others, ends⟩ := Option.bind_eq_some_iff.1 found
      cases ends
      exact List.forall_mem_cons.2 ⟨good, ih others⟩
    · cases found
      exact List.forall_mem_cons.2 ⟨good, nofun⟩
    · cases found

theorem of_member (h : ∀ s v rest, read s = some (v, rest) → P v) {f : String × Json}
    (found : member read s = some (f, rest)) : P f.2 := by
  unfold member at found
  split at found
  · obtain ⟨⟨k, t⟩, -, found⟩ := Option.bind_eq_some_iff.1 found
    dsimp only at found
    split at found
    · obtain ⟨⟨v, u⟩, value, ends⟩ := Option.bind_eq_some_iff.1 found
      cases ends
      exact h _ v u value
    · cases found
  · cases found

theorem forall_of_members (h : ∀ s v rest, read s = some (v, rest) → P v) {fuel : Nat}
    {fs : List (String × Json)} (found : members read fuel s = some (fs, rest)) :
    ∀ f ∈ fs, P f.2 := by
  induction fuel generalizing s fs with
  | zero => cases found
  | succ fuel ih =>
    simp only [members, Option.bind_eq_bind, Option.bind_eq_some_iff] at found
    obtain ⟨⟨f, t⟩, first, found⟩ := found
    have good := of_member h first
    split at found
    · obtain ⟨⟨gs, u⟩, others, ends⟩ := Option.bind_eq_some_iff.1 found
      cases ends
      exact List.forall_mem_cons.2 ⟨good, ih others⟩
    · cases found
      exact List.forall_mem_cons.2 ⟨good, nofun⟩
    · cases found

theorem formed_of_array (h : ∀ s v rest, read s = some (v, rest) → Formed d v)
    (found : array read s = some (v, rest)) : Formed (d + 1) v := by
  unfold array at found
  split at found
  · cases found
    exact .arr nofun
  · obtain ⟨p, items, ends⟩ := Option.map_eq_some_iff.1 found
    cases ends
    exact .arr (forall_of_elements h items)

theorem formed_of_object (h : ∀ s v rest, read s = some (v, rest) → Formed d v)
    (found : object read s = some (v, rest)) : Formed (d + 1) v := by
  unfold object at found
  split at found
  · cases found
    exact .obj .nil nofun
  · obtain ⟨p, fields, ends⟩ := Option.map_eq_some_iff.1 found
    cases ends
    refine .obj (Fields.sorted_ofMembers p.1) fun f hf => ?_
    exact forall_of_members h fields f (Fields.mem_ofMembers hf)

/-- What is read has the right form. -/
theorem formed_of_value (h : value d s = some (v, rest)) : Formed d v := by
  -- By induction on how deep the reader may still go.
  induction d generalizing s v rest with
  | zero => exact formed_of_scalar h
  | succ d ih =>
    simp only [value] at h
    split at h
    · exact formed_of_array (fun _ _ _ => ih) h
    · exact formed_of_object (fun _ _ _ => ih) h
    · exact formed_of_scalar h

theorem formed_of_parse? {text : String} (h : parse? text = some v) : Formed maxDepth v := by
  obtain ⟨⟨u, rest⟩, read, ends⟩ := Option.bind_eq_some_iff.1 h
  dsimp only at ends
  split at ends
  · cases ends
    exact formed_of_value read
  · cases ends

end LiveState.Json
