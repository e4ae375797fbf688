import LiveState.Json.Printer
import LiveState.Proofs.Json.Form
import LiveState.Proofs.Json.Literal

/-! # Values read back

A value of the right form, all of whose numbers are whole, is read back from its compact text.  If
there are other numbers in it, they may become different ones, and the rest of the value is read
back all the same.
-/

namespace LiveState.Json

/-! ## Numbers that drift -/

/-- Each number in a value that is not whole is read from its own text, perhaps as another number. -/
inductive Legible : Json → Prop where
  | null : Legible .null
  | bool (b : Bool) : Legible (.bool b)
  | int (n : Int) : Legible (.int n)
  | float {x : Float} {v : Json} (read : number (scalarText (.float x)) = some (v, [])) :
      Legible (.float x)
  | str (s : String) : Legible (.str s)
  | arr {items : List Json} (h : ∀ v ∈ items, Legible v) : Legible (.arr items)
  | obj {fields : List (String × Json)} (h : ∀ f ∈ fields, Legible f.2) : Legible (.obj fields)

theorem Legible.elements {items : List Json} : Legible (.arr items) → ∀ v ∈ items, Legible v
  | .arr h => h

theorem Legible.members {fields : List (String × Json)} :
    Legible (.obj fields) → ∀ f ∈ fields, Legible f.2
  | .obj h => h

mutual

/-- What is read from the text of a value. -/
def reread : Json → Json
  | .float x => ((number (scalarText (.float x))).map (·.1)).getD (.float x)
  | .arr items => .arr (rereadItems items)
  | .obj fields => .obj (rereadFields fields)
  | v => v

def rereadItems : List Json → List Json
  | [] => []
  | v :: vs => v.reread :: rereadItems vs

def rereadFields : List (String × Json) → List (String × Json)
  | [] => []
  | (k, v) :: fs => (k, v.reread) :: rereadFields fs

end

theorem rereadItems_eq (items : List Json) : rereadItems items = items.map reread := by
  induction items with
  | nil => rfl
  | cons v vs ih => rw [rereadItems, ih, List.map_cons]

theorem rereadFields_eq (fields : List (String × Json)) :
    rereadFields fields = fields.map fun f => (f.1, f.2.reread) := by
  induction fields with
  | nil => rfl
  | cons f fs ih => rw [rereadFields, ih, List.map_cons]

theorem Whole.legible {v : Json} (whole : Whole v) : Legible v := by
  induction whole with
  | null => exact .null
  | bool b => exact .bool b
  | int n => exact .int n
  | str s => exact .str s
  | arr _ ih => exact .arr ih
  | obj _ ih => exact .obj ih

/-- Whole numbers do not drift. -/
theorem Whole.reread_eq {v : Json} (whole : Whole v) : v.reread = v := by
  induction whole with
  | null | bool | int | str => rfl
  | arr _ ih => rw [reread, rereadItems_eq, List.map_congr_left ih, List.map_id']
  | obj _ ih =>
    rw [reread, rereadFields_eq, List.map_congr_left fun f hf => by rw [ih f hf], List.map_id']

theorem map_reread_of_whole {fields : List (String × Json)} (whole : ∀ f ∈ fields, Whole f.2) :
    (fields.map fun f => (f.1, f.2.reread)) = fields := by
  rw [List.map_congr_left fun f hf => by rw [(whole f hf).reread_eq], List.map_id']

/-! ## How texts begin -/

theorem skipBlanks_cons {c : Char} (h : isBlank c = false) (s : List Char) :
    skipBlanks (c :: s) = c :: s := by
  simp [skipBlanks, h]

/-- A text that begins with something else than a blank or the end of a list. -/
def Begun (s : List Char) : Prop := ∃ c cs, s = c :: cs ∧ isBlank c = false ∧ c ≠ ']'

theorem Begun.append {s : List Char} (h : Begun s) (rest : List Char) : Begun (s ++ rest) := by
  obtain ⟨c, cs, rfl, visible, notEnd⟩ := h
  exact ⟨c, cs ++ rest, rfl, visible, notEnd⟩

theorem Begun.skipBlanks {s : List Char} (h : Begun s) : skipBlanks s = s := by
  obtain ⟨c, cs, rfl, visible, -⟩ := h
  exact skipBlanks_cons visible cs

theorem Begun.ne_nil {s : List Char} (h : Begun s) : s ≠ [] := by
  obtain ⟨c, cs, rfl, -⟩ := h
  exact List.cons_ne_nil c cs

theorem toString_eq_cons (n : Int) :
    ∃ c cs, (toString n).toList = c :: cs ∧ (c = '-' ∨ isDigit c = true) := by
  rw [Int.toString_eq_repr, Int.repr_eq_if]
  split
  · obtain ⟨c, ds, digits, digit⟩ := toDigits_eq_cons n.toNat
    exact ⟨c, ds, (Nat.toList_repr ..).trans digits, .inr digit⟩
  · exact ⟨'-', (-n).toNat.repr.toList, by rw [String.toList_append]; rfl, .inl rfl⟩

theorem isBlank_of_number {c : Char} (h : c = '-' ∨ isDigit c = true) : isBlank c = false := by
  refine Bool.eq_false_iff.2 fun blank => ?_
  simp only [isBlank, Bool.or_eq_true, beq_iff_eq] at blank
  obtain ((rfl | rfl) | rfl) | rfl := blank
  all_goals
    revert h
    decide

theorem value_of_number {c : Char} (h : c = '-' ∨ isDigit c = true) (d : Nat) (s : List Char) :
    value d (c :: s) = number (c :: s) := by
  have others : c ≠ '[' ∧ c ≠ '\x7b' ∧ c ≠ 'n' ∧ c ≠ 't' ∧ c ≠ 'f' ∧ c ≠ '"' := by
    refine ⟨?_, ?_, ?_, ?_, ?_, ?_⟩
    all_goals
      rintro rfl
      revert h
      decide
  obtain ⟨bracket, brace, null, true, false, quote⟩ := others
  cases d <;> simp [value, scalar, bracket, brace, null, true, false, quote]

theorem begun_of_number {c : Char} {s : List Char} (h : c = '-' ∨ isDigit c = true) :
    Begun (c :: s) := by
  refine ⟨c, s, rfl, isBlank_of_number h, ?_⟩
  rintro rfl
  revert h
  decide

theorem begun_of_legible {v : Json} (legible : Legible v) : Begun v.compactChars := by
  cases legible with
  | null => exact ⟨_, _, rfl, by decide⟩
  | bool b => cases b <;> exact ⟨_, _, rfl, by decide⟩
  | int n =>
    obtain ⟨c, cs, text, first⟩ := toString_eq_cons n
    show Begun (toString n).toList
    exact text ▸ begun_of_number first
  | @float x v read =>
    obtain ⟨c, cs, text, first⟩ := number_begins read
    show Begun (scalarText (.float x))
    exact text ▸ begun_of_number first
  | str s => exact ⟨_, _, rfl, by decide⟩
  | arr h => exact ⟨_, _, rfl, by decide⟩
  | obj h => exact ⟨_, _, rfl, by decide⟩

/-! ## Arrays and objects -/

/-- A reader reads a value back from its compact text, but for the numbers that drift. -/
structure ReadBack (read : List Char → Option (Json × List Char)) (v : Json) : Prop where
  begun : Begun v.compactChars
  read {rest : List Char} : Ended rest → read (v.compactChars ++ rest) = some (v.reread, rest)

variable {read : List Char → Option (Json × List Char)} {v : Json} {rest : List Char}

theorem ReadBack.spaced (h : ReadBack read v) (ended : Ended rest) :
    read (skipBlanks (v.compactChars ++ rest)) = some (v.reread, rest) := by
  rw [(h.begun.append rest).skipBlanks]
  exact h.read ended

theorem elements_last (h : ReadBack read v) (fuel : Nat) :
    elements read (fuel + 1) (v.compactChars ++ ']' :: rest) = some ([v.reread], rest) := by
  rw [elements, h.spaced (ended_cons _ (by decide))]
  rfl

theorem elements_next (h : ReadBack read v) (fuel : Nat) (s : List Char) :
    elements read (fuel + 1) (v.compactChars ++ ',' :: s) =
      (elements read fuel s).map fun p => (v.reread :: p.1, p.2) := by
  rw [elements, h.spaced (ended_cons _ (by decide)), Option.map_eq_bind]
  rfl

theorem elements_compactItems {vs : List Json} {fuel : Nat} (h : ∀ w ∈ v :: vs, ReadBack read w)
    (enough : vs.length < fuel) :
    elements read fuel (compactItems (v :: vs) ++ ']' :: rest) =
      some ((v :: vs).map reread, rest) := by
  -- On the elements after the first one, with a budget for each.
  induction vs generalizing v fuel with
  | nil =>
    obtain _ | fuel := fuel
    · cases enough
    exact elements_last (h v List.mem_cons_self) fuel
  | cons w ws ih =>
    obtain _ | fuel := fuel
    · cases enough
    have others := ih (fun u hu => h u (List.mem_cons_of_mem v hu)) (Nat.lt_of_succ_lt_succ enough)
    rw [compactItems, List.append_assoc, List.cons_append,
      elements_next (h v List.mem_cons_self), others]
    rfl

theorem length_le_compactItems {vs : List Json} (h : ∀ v ∈ vs, Begun v.compactChars) :
    vs.length ≤ (compactItems vs).length := by
  induction vs with
  | nil => exact Nat.le_refl 0
  | cons v vs ih =>
    have first := List.length_pos_iff.2 (h v List.mem_cons_self).ne_nil
    cases vs with
    | nil => exact first
    | cons w ws =>
      have others := ih fun u hu => h u (List.mem_cons_of_mem v hu)
      simp only [compactItems, List.length_append, List.length_cons] at others ⊢
      omega

theorem array_of_begun {s : List Char} (begun : Begun s) :
    array read s = (elements read s.length s).map fun p => (.arr p.1, p.2) := by
  obtain ⟨c, cs, rfl, visible, notEnd⟩ := begun
  rw [array, skipBlanks_cons visible]
  split
  · next text => exact absurd (List.cons.inj text).1 notEnd
  · rfl

theorem array_compactItems {items : List Json} (h : ∀ v ∈ items, ReadBack read v) :
    array read (compactItems items ++ ']' :: rest) = some (.arr (items.map reread), rest) := by
  cases items with
  | nil => rfl
  | cons v vs =>
    have begun : Begun (compactItems (v :: vs)) := by
      cases vs with
      | nil => exact (h v List.mem_cons_self).begun
      | cons w ws => exact (h v List.mem_cons_self).begun.append _
    -- The budget is the length of the text, in which every element has a character.
    have enough : vs.length < (compactItems (v :: vs) ++ ']' :: rest).length := by
      have atLeast := length_le_compactItems fun u hu => (h u hu).begun
      rw [List.length_append]
      exact Nat.lt_of_lt_of_le atLeast (Nat.le_add_right ..)
    rw [array_of_begun (begun.append _), elements_compactItems h enough]
    rfl

theorem member_compact (k : String) (h : ReadBack read v) (ended : Ended rest) :
    member read (literal k ++ ':' :: v.compactChars ++ rest) = some ((k, v.reread), rest) := by
  have colon : skipBlanks (':' :: (v.compactChars ++ rest)) = ':' :: (v.compactChars ++ rest) := rfl
  rw [List.append_assoc, literal_append, List.cons_append, member, string_literal]
  simp only [Option.bind_eq_bind, Option.bind_some, colon, h.spaced ended]
  rfl

theorem skipBlanks_member (k : String) (s : List Char) :
    skipBlanks (literal k ++ s) = literal k ++ s := by
  rw [literal_append]
  rfl

theorem members_last (k : String) (h : ReadBack read v) (fuel : Nat) :
    members read (fuel + 1) (literal k ++ ':' :: v.compactChars ++ '\x7d' :: rest) =
      some ([(k, v.reread)], rest) := by
  have first := member_compact k h (ended_cons (c := '\x7d') rest (by decide))
  rw [List.append_assoc] at first ⊢
  rw [members, skipBlanks_member, first]
  rfl

theorem members_next (k : String) (h : ReadBack read v) (fuel : Nat) (s : List Char) :
    members read (fuel + 1) (literal k ++ ':' :: v.compactChars ++ ',' :: s) =
      (members read fuel s).map fun p => ((k, v.reread) :: p.1, p.2) := by
  have first := member_compact k h (ended_cons (c := ',') s (by decide))
  rw [List.append_assoc] at first ⊢
  rw [members, skipBlanks_member, first, Option.map_eq_bind]
  rfl

theorem members_compactFields {f : String × Json} {fs : List (String × Json)} {fuel : Nat}
    (h : ∀ g ∈ f :: fs, ReadBack read g.2) (enough : fs.length < fuel) :
    members read fuel (compactFields (f :: fs) ++ '\x7d' :: rest) =
      some ((f :: fs).map fun f => (f.1, f.2.reread), rest) := by
  induction fs generalizing f fuel with
  | nil =>
    obtain _ | fuel := fuel
    · cases enough
    exact members_last f.1 (h f List.mem_cons_self) fuel
  | cons g gs ih =>
    obtain _ | fuel := fuel
    · cases enough
    have others := ih (fun u hu => h u (List.mem_cons_of_mem f hu)) (Nat.lt_of_succ_lt_succ enough)
    rw [compactFields, List.append_assoc, List.cons_append,
      members_next f.1 (h f List.mem_cons_self), others]
    rfl

theorem length_le_compactFields (fs : List (String × Json)) :
    fs.length ≤ (compactFields fs).length := by
  induction fs with
  | nil => exact Nat.le_refl 0
  | cons f fs ih =>
    cases fs with
    | nil => simp [compactFields, literal]
    | cons g gs =>
      simp only [compactFields, List.length_append, List.length_cons] at ih ⊢
      omega

theorem object_of_literal (k : String) (s : List Char) :
    object read (literal k ++ s) =
      (members read (literal k ++ s).length (literal k ++ s)).map
        fun p => (.obj (Fields.ofMembers p.1), p.2) := by
  rw [object, skipBlanks_member, literal_append]
  rfl

/-- Members are read in their order, which leaves the last of those with one name. -/
theorem object_compactFields {fields : List (String × Json)}
    (h : ∀ f ∈ fields, ReadBack read f.2) :
    object read (compactFields fields ++ '\x7d' :: rest) =
      some (.obj (Fields.ofMembers (fields.map fun f => (f.1, f.2.reread))), rest) := by
  cases fields with
  | nil => rfl
  | cons f fs =>
    have enough : fs.length < (compactFields (f :: fs) ++ '\x7d' :: rest).length := by
      have atLeast := length_le_compactFields (f :: fs)
      rw [List.length_append]
      exact Nat.lt_of_lt_of_le atLeast (Nat.le_add_right ..)
    -- An object with members begins with a name, and so with no blank or brace.
    have begins : ∃ s, compactFields (f :: fs) ++ '\x7d' :: rest = literal f.1 ++ s := by
      cases fs with
      | nil => exact ⟨_, List.append_assoc ..⟩
      | cons g gs =>
        refine ⟨':' :: f.2.compactChars ++ (',' :: compactFields (g :: gs) ++ '\x7d' :: rest), ?_⟩
        simp only [compactFields, List.append_assoc]
    obtain ⟨s, text⟩ := begins
    have found : members read _ (compactFields (f :: fs) ++ '\x7d' :: rest) = _ :=
      members_compactFields h enough
    rw [text] at found ⊢
    rw [object_of_literal, found]
    rfl

/-! ## Values -/

/-- A value of the right form is read back, but for the numbers that drift. -/
theorem readBack_value {d : Nat} (formed : Formed d v) (legible : Legible v) :
    ReadBack (value d) v := by
  refine ⟨begun_of_legible legible, ?_⟩
  -- Along the form, since the depth of the reader goes down with it.
  induction formed with
  | @null d =>
    intro rest _
    cases d <;> rfl
  | @bool d b =>
    intro rest _
    cases d <;> cases b <;> rfl
  | @int d n exact =>
    intro rest ended
    obtain ⟨c, cs, text, first⟩ := toString_eq_cons n
    have read := number_toString exact ended
    show value d ((toString n).toList ++ rest) = _
    rw [text] at read ⊢
    exact (value_of_number first d _).trans read
  | @float d x =>
    intro rest ended
    obtain ⟨y, own⟩ : ∃ y, number (scalarText (.float x)) = some (y, []) := by
      cases legible with
      | float own => exact ⟨_, own⟩
    obtain ⟨c, cs, text, first⟩ := number_begins own
    have same : (float x).reread = y := by rw [reread, own]; rfl
    have read := isLocal_number ended own
    show value d (scalarText (.float x) ++ rest) = _
    rw [same]
    rw [text] at read ⊢
    exact (value_of_number first d _).trans read
  | @str d s =>
    intro rest _
    have read := scalar_literal s rest
    show value d (literal s ++ rest) = _
    rw [literal_append] at read ⊢
    cases d <;> exact read
  | @arr d items _ ih =>
    intro rest _
    have legible := legible.elements
    have text : (arr items).compactChars ++ rest = '[' :: (compactItems items ++ ']' :: rest) := by
      simp [compactChars]
    rw [text, reread, rereadItems_eq]
    exact array_compactItems fun v hv => ⟨begun_of_legible (legible v hv), ih v hv (legible v hv)⟩
  | @obj d fields sorted _ ih =>
    intro rest _
    have legible := legible.members
    have text : (obj fields).compactChars ++ rest =
        '\x7b' :: (compactFields fields ++ '\x7d' :: rest) := by
      simp [compactChars]
    rw [text, reread, rereadFields_eq]
    refine (object_compactFields fun f hf => ?_).trans (by rw [(sorted.map reread).ofMembers_eq])
    exact ⟨begun_of_legible (legible f hf), ih f hf (legible f hf)⟩

/-- Of the members of an object that is read back the last of each name is left. -/
theorem parse?_compact_obj {members : List (String × Json)}
    (h : ∀ f ∈ members, Formed 126 f.2 ∧ Legible f.2) :
    parse? (obj members).compact =
      some (.obj (Fields.ofMembers (members.map fun f => (f.1, f.2.reread)))) := by
  have read : object (value 126) (compactFields members ++ '\x7d' :: []) =
      some (.obj (Fields.ofMembers (members.map fun f => (f.1, f.2.reread))), []) :=
    object_compactFields fun f hf => readBack_value (h f hf).1 (h f hf).2
  -- The object itself is one level deep.
  have whole : value maxDepth (obj members).compactChars =
      some (.obj (Fields.ofMembers (members.map fun f => (f.1, f.2.reread))), []) := read
  have visible : skipBlanks (obj members).compactChars = (obj members).compactChars := rfl
  rw [parse?, compact, String.toList_ofList, parseChars?, visible, whole]
  rfl

end LiveState.Json
