import LiveState.Proofs.Json.Members
import LiveState.Proofs.Settings.RoundTrip

/-! # What stored settings are loaded as

Which stored bytes are settings of a user is said here in terms of the members that stand in the
text.  Everything else is given up for the default: what is no text, no JSON, no object, or an
object whose limit is no whole number of 64 bits.
-/

namespace LiveState

namespace Settings

variable {ρ : Type} [Record ρ]

/-- The record that the answer of a medium stands for. -/
def ofAnswer (default : ρ) : Except StorageError (Option ByteArray) → Except LoadError ρ
  | .error e => .error (.unreadable e)
  | .ok none => .ok default
  | .ok (some bytes) => if bytes.isEmpty then .ok default else decode default bytes

/-- The members of the object that bytes stand for, in the order of the text. -/
def membersOf? (bytes : ByteArray) : Option (List (String × Json)) :=
  (String.fromUTF8? bytes).bind Json.parseMembers?

variable {bytes : ByteArray} {members : List (String × Json)} {fields : Json.Fields}

theorem parseBytes?_of_membersOf? (h : membersOf? bytes = some members) :
    parseBytes? bytes = some (.obj (Json.Fields.ofMembers members)) := by
  obtain ⟨text, valid, read⟩ := Option.bind_eq_some_iff.1 h
  exact Option.bind_eq_some_iff.2 ⟨text, valid, Json.parse?_of_parseMembers? read⟩

theorem membersOf?_of_parseBytes? (h : parseBytes? bytes = some (.obj fields)) :
    ∃ members, membersOf? bytes = some members ∧ fields = Json.Fields.ofMembers members := by
  obtain ⟨text, valid, read⟩ := Option.bind_eq_some_iff.1 h
  obtain ⟨members, found, same⟩ := Json.parseMembers?_of_parse? read
  exact ⟨members, Option.bind_eq_some_iff.2 ⟨text, valid, found⟩, same⟩

end Settings

namespace UserSettings

open Json Settings

/-- The limit that the members of a stored object give, in the order of the text.  The last one
    counts; without any it is that of the default. -/
def limitOf? (members : List (String × Json)) : Option Int64 :=
  match Fields.get? members.reverse limitField with
  | none => some initial.resultLimit
  | some (.int n) => if fitsInt64 n then some (Int64.ofInt n) else none
  | some _ => none

def ofMembers? (members : List (String × Json)) : Option UserSettings :=
  (limitOf? members).map fun limit => ⟨limit, (Fields.ofMembers members).erase limitField⟩

/-- The settings that stored bytes stand for, if they are the text of an object that has a limit
    that can be used, or none. -/
def ofBytes? (bytes : ByteArray) : Option UserSettings := (membersOf? bytes).bind ofMembers?

inductive Verdict where
  /-- Nothing is stored, or no bytes. -/
  | absent
  | readable (u : UserSettings)
  /-- The medium has failed, or what it holds are no settings. -/
  | unreadable

/-- What loading settings comes to if this is what the medium answers. -/
def verdict : Except StorageError (Option ByteArray) → Verdict
  | .error _ => .unreadable
  | .ok none => .absent
  | .ok (some bytes) =>
    if bytes.isEmpty then .absent else (ofBytes? bytes).elim .unreadable .readable

variable {fields : Fields}

/-! ## Objects -/

theorem erase_insertIfNew (sorted : Fields.Sorted fields) (v : Json) :
    (fields.insertIfNew limitField v).erase limitField = fields.erase limitField := by
  rw [Fields.insertIfNew]
  split
  · rfl
  · refine ((sorted.insert _ _).erase _).ext (sorted.erase _) fun k => ?_
    by_cases here : k = limitField
    · rw [here, Fields.get?_erase_self, Fields.get?_erase_self]
    · rw [Fields.get?_erase_of_ne here, Fields.get?_erase_of_ne here,
        Fields.get?_insert_of_ne here]

theorem ofStored_ofMembers (members : List (String × Json)) :
    (ofStored initial (Fields.ofMembers members)).toOption = ofMembers? members := by
  have sorted := Fields.sorted_ofMembers members
  have last := Fields.get?_ofMembers members limitField
  rw [ofStored_initial, ofFields, erase_insertIfNew sorted, ofMembers?, limitOf?, readField,
    Fields.insertIfNew, last]
  cases found : Fields.get? members.reverse limitField with
  | none =>
    rw [if_neg (by simp), Fields.get?_insert_self]
    rfl
  | some v =>
    rw [if_pos (by simp), last, found]
    cases v with
    | int n =>
      simp only [readInteger]
      cases fitsInt64 n <;> rfl
    | _ => rfl

/-! ## Bytes -/

theorem decode_initial (bytes : ByteArray) : (decode initial bytes).toOption = ofBytes? bytes := by
  rw [ofBytes?]
  cases found : membersOf? bytes with
  | some members =>
    rw [decode, parseBytes?_of_membersOf? found, Option.bind_some, ← ofStored_ofMembers]
    dsimp only
    cases ofStored initial (Fields.ofMembers members) <;> rfl
  | none =>
    unfold decode
    split
    · rfl
    · next fields read =>
      obtain ⟨members, found', -⟩ := membersOf?_of_parseBytes? read
      rw [found] at found'
      cases found'
    · rfl

/-- Loading agrees with the verdict on what the medium answers. -/
theorem ofAnswer_initial (answer : Except StorageError (Option ByteArray)) :
    (ofAnswer initial answer).toOption =
      match verdict answer with
      | .absent => some initial
      | .readable u => some u
      | .unreadable => none := by
  rcases answer with e | _ | bytes
  · rfl
  · rfl
  · simp only [ofAnswer, verdict]
    split
    · rfl
    · rw [decode_initial]
      cases ofBytes? bytes <;> rfl

end UserSettings

end LiveState
