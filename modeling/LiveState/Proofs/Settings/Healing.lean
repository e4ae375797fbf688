import LiveState.Proofs.Settings.RoundTrip
import LiveState.Settings.Samples

/-! # Healing

The fields that a default provides are merged into a stored object: what the object has stays, and
what it lacks is filled in.  A record that was read from merged fields is read back as it is from
the bytes that are stored for it, because these hold the merged fields again.
-/

namespace LiveState

open Json Settings

/-! ## Merged fields -/

/-- `merged` has the fields of `given`, and those of `defaults` that `given` lacks. -/
structure Json.Fields.Merges (given defaults merged : Fields) : Prop where
  sorted : Fields.Sorted merged
  get?_eq : ∀ k, merged.get? k = (given.get? k).or (defaults.get? k)

/-- A field that a text keeps exactly: it is not nested too deep, and its numbers are whole. -/
def Json.IsPlain (f : String × Json) : Prop := Formed 126 f.2 ∧ Whole f.2

namespace Json.Fields

variable {given defaults merged : Fields}

theorem merges_backfill (h : Sorted given) (defaults : Fields) :
    given.Merges defaults (given.backfill defaults) :=
  ⟨h.backfill defaults, get?_backfill_eq given defaults⟩

namespace Merges

theorem backfill_self (h : given.Merges defaults merged) : merged.backfill defaults = merged := by
  refine (h.sorted.backfill defaults).ext h.sorted fun k => ?_
  rw [get?_backfill_eq, h.get?_eq, Option.or_assoc, Option.or_self]

theorem plain (h : given.Merges defaults merged) (hg : ∀ f ∈ given, IsPlain f)
    (hd : ∀ f ∈ defaults, given.get? f.1 = none → IsPlain f) : ∀ f ∈ merged, IsPlain f := by
  intro f hf
  have found := h.sorted.get?_of_mem hf
  rw [h.get?_eq] at found
  cases there : given.get? f.1 with
  | some v =>
    rw [there] at found
    cases found
    exact hg (f.1, f.2) (mem_of_get? there)
  | none =>
    rw [there] at found
    exact hd (f.1, f.2) (mem_of_get? found) there

end Merges

end Json.Fields

/-! ## Stored objects -/

namespace Settings

variable {ρ : Type} [Record ρ] {bytes : ByteArray} {given defaults merged : Fields} {v default : ρ}

theorem isEmpty_of_parseBytes? {u : Json} (parsed : parseBytes? bytes = some u) :
    bytes.isEmpty = false := by
  refine Bool.eq_false_iff.2 fun empty => ?_
  have none : bytes = ByteArray.empty := ByteArray.ext (Array.eq_empty_of_size_eq_zero
    (beq_iff_eq.1 empty))
  rw [none] at parsed
  cases parsed

/-- The fields of a stored object are sorted, and not nested too deep. -/
theorem formed_of_parseBytes? (parsed : parseBytes? bytes = some (.obj given)) :
    Fields.Sorted given ∧ ∀ f ∈ given, Formed 126 f.2 := by
  obtain ⟨text, -, parsed⟩ := Option.bind_eq_some_iff.1 parsed
  have formed : Formed maxDepth (.obj given) := formed_of_parse? parsed
  cases formed with
  | obj sorted h => exact ⟨sorted, h⟩

theorem isPlain_of_parseBytes? (parsed : parseBytes? bytes = some (.obj given))
    (whole : Whole (.obj given)) : ∀ f ∈ given, IsPlain f := fun f hf =>
  ⟨(formed_of_parseBytes? parsed).2 f hf, whole.members f hf⟩

theorem parseBytes?_compact_sorted (sorted : Fields.Sorted merged)
    (plain : ∀ f ∈ merged, IsPlain f) :
    parseBytes? (compact (.obj merged)).toUTF8 = some (.obj merged) := by
  rw [parseBytes?_compact_obj plain, sorted.ofMembers_eq]

theorem decode_obj (provides : defaultFields default = .ok defaults)
    (parsed : parseBytes? bytes = some (.obj given)) :
    decode default bytes = (Record.ofFields (given.backfill defaults)).mapError .shape := by
  rw [decode, parsed]
  simp only [ofStored, provides]
  rfl

/-- What was read from merged fields is read again from bytes that hold them. -/
theorem decode_merged (provides : defaultFields default = .ok defaults)
    (merges : given.Merges defaults merged) (read : Record.ofFields merged = .ok v)
    (parsed : parseBytes? bytes = some (.obj merged)) : decode default bytes = .ok v := by
  rw [decode_obj provides parsed, merges.backfill_self, read]
  rfl

end Settings

/-! ## Any value -/

namespace Json

theorem defaultFields_obj (members : List (String × Json)) :
    defaultFields (Json.obj members) = .ok (Fields.ofMembers members) := rfl

theorem encode_eq (v : Json) : encode v = .ok v.compact.toUTF8 := rfl

end Json

/-! ## User settings -/

namespace UserSettings

variable {u : UserSettings} {merged : Fields}

def members (u : UserSettings) : List (String × Json) :=
  (limitField, .int u.resultLimit.toInt) :: u.extra

theorem defaultFields_eq (u : UserSettings) :
    defaultFields u = .ok (Fields.ofMembers u.members) := rfl

theorem eq_int_of_readInteger {v : Json} {n : Int64} (h : readInteger v = .ok n) :
    v = .int n.toInt := by
  cases v with
  | int m =>
    simp only [readInteger] at h
    split at h
    · next fits =>
      simp only [fitsInt64, Bool.and_eq_true, decide_eq_true_eq] at fits
      cases h
      rw [Int64.toInt_ofInt_of_le fits.1 fits.2]
    · cases h
  | _ => cases h

/-- Settings are read from fields that give their limit, and keep all others. -/
theorem ofFields_eq_ok_iff : ofFields merged = .ok u ↔
    merged.get? limitField = some (.int u.resultLimit.toInt) ∧
      u.extra = merged.erase limitField := by
  constructor
  · intro read
    refine ⟨?_, extra_of_ofFields read⟩
    simp only [ofFields, readField] at read
    cases there : merged.get? limitField with
    | none =>
      rw [there] at read
      cases read
    | some v =>
      rw [there] at read
      cases limit : readInteger v with
      | error e =>
        simp only [limit] at read
        cases read
      | ok n =>
        simp only [limit] at read
        cases read
        rw [eq_int_of_readInteger limit]
  · rintro ⟨limit, extra⟩
    simp only [ofFields, readField, limit, readInteger_toInt, ← extra]
    rfl

/-- Settings that were read from fields have all of them as their members. -/
theorem get?_members_of_ofFields (read : ofFields merged = .ok u) (k : String) :
    Fields.get? u.members k = merged.get? k := by
  obtain ⟨limit, extra⟩ := ofFields_eq_ok_iff.1 read
  rw [members, extra, Fields.get?_cons]
  by_cases here : limitField = k
  · rw [if_pos here, ← here, limit]
  · rw [if_neg here, Fields.get?_erase_of_ne (Ne.symm here)]

/-- The bytes of settings that were read from sorted fields hold these fields. -/
theorem parseBytes?_bytes_of_ofFields (sorted : Fields.Sorted merged)
    (plain : ∀ f ∈ merged, IsPlain f) (read : ofFields merged = .ok u) :
    parseBytes? u.bytes = some (.obj merged) := by
  obtain ⟨limit, extra⟩ := ofFields_eq_ok_iff.1 read
  have members : ∀ f ∈ u.members, IsPlain f := by
    refine List.forall_mem_cons.2 ⟨?_, fun f hf => ?_⟩
    · exact plain (limitField, .int u.resultLimit.toInt) (Fields.mem_of_get? limit)
    · rw [extra] at hf
      exact plain f (List.mem_filter.1 hf).1
  have same : Fields.ofMembers u.members = merged := by
    refine (Fields.sorted_ofMembers _).ext sorted fun k => ?_
    -- The limit stands first, and the others do not have its name.
    rw [Fields.get?_ofMembers, UserSettings.members, List.reverse_cons, Fields.get?_append,
      Fields.Sorted.get?_reverse (extra ▸ sorted.erase _), extra, Fields.get?_cons]
    by_cases here : limitField = k
    · rw [if_pos here, ← here, Fields.get?_erase_self, limit]
      rfl
    · rw [if_neg here, Fields.get?_erase_of_ne (Ne.symm here)]
      exact Option.or_none
  rw [← same]
  exact parseBytes?_compact_obj members

end UserSettings

end LiveState
