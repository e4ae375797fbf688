import LiveState.Proofs.Json.Form

/-! # Members in the order of a text

An object that is read keeps the last of the members of one name.  Which members a text has, in
its own order, is read here before any of them is dropped.
-/

namespace LiveState.Json

/-- The members of an object after its opening brace, up to its closing brace. -/
def objectMembers (value : List Char → Option (Json × List Char)) (s : List Char) :
    Option (List (String × Json) × List Char) :=
  match skipBlanks s with
  | '\x7d' :: s => some ([], s)
  | s => members value s.length s

/-- The members of the object that a text stands for. -/
def parseMembers? (text : String) : Option (List (String × Json)) :=
  match skipBlanks text.toList with
  | '\x7b' :: s => do
    let (members, rest) ← objectMembers (value 126) s
    if (skipBlanks rest).isEmpty then some members else none
  | _ => none

theorem object_eq (value : List Char → Option (Json × List Char)) (s : List Char) :
    object value s =
      (objectMembers value s).map fun p => (.obj (Fields.ofMembers p.1), p.2) := by
  simp only [object, objectMembers]
  cases skipBlanks s with
  | nil => rfl
  | cons c rest =>
    by_cases closed : c = '\x7d'
    · subst closed
      rfl
    · simp [closed]

/-! ## What is no object -/

variable {s rest : List Char} {fields : Fields} {d : Nat}

theorem scalar_ne_obj : scalar s ≠ some (.obj fields, rest) := by
  intro read
  -- An object would be one level deep.
  cases formed_of_scalar (d := 0) read

theorem array_ne_obj (value : List Char → Option (Json × List Char)) :
    array value s ≠ some (.obj fields, rest) := by
  intro read
  unfold array at read
  split at read
  · cases read
  · obtain ⟨p, -, ends⟩ := Option.map_eq_some_iff.1 read
    cases ends

theorem value_eq_obj (read : value (d + 1) s = some (.obj fields, rest)) :
    ∃ t members, s = '\x7b' :: t ∧ objectMembers (value d) t = some (members, rest) ∧
      fields = Fields.ofMembers members := by
  rw [value.eq_def] at read
  dsimp only at read
  split at read
  · exact absurd read (array_ne_obj _)
  · next t =>
    rw [object_eq] at read
    obtain ⟨⟨members, _⟩, found, ends⟩ := Option.map_eq_some_iff.1 read
    cases ends
    exact ⟨t, members, rfl, found, rfl⟩
  · exact absurd read scalar_ne_obj

/-! ## Whole texts -/

variable {text : String} {members : List (String × Json)}

theorem parse?_of_parseMembers? (h : parseMembers? text = some members) :
    parse? text = some (.obj (Fields.ofMembers members)) := by
  unfold parseMembers? at h
  split at h
  · next s begins =>
    obtain ⟨⟨found, rest⟩, read, ends⟩ := Option.bind_eq_some_iff.1 h
    have whole : value maxDepth ('\x7b' :: s) = some (.obj (Fields.ofMembers found), rest) := by
      show object (value 126) s = _
      rw [object_eq, read]
      rfl
    dsimp only at ends
    split at ends
    · next blank =>
      cases ends
      rw [parse?, parseChars?, begins, whole]
      exact if_pos blank
    · cases ends
  · cases h

theorem parseMembers?_of_parse? (h : parse? text = some (.obj fields)) :
    ∃ members, parseMembers? text = some members ∧ fields = Fields.ofMembers members := by
  obtain ⟨⟨v, rest⟩, read, ends⟩ := Option.bind_eq_some_iff.1 h
  dsimp only at ends
  split at ends
  · next blank =>
    cases ends
    obtain ⟨t, members, begins, found, same⟩ := value_eq_obj read
    refine ⟨members, ?_, same⟩
    simp only [parseMembers?, begins, found]
    exact if_pos blank
  · cases ends

end LiveState.Json
