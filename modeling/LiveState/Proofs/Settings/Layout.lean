import LiveState.Proofs.Settings.RoundTrip
import LiveState.Settings.Samples

/-! # Layouts read back

A layout is read back as it is, whatever the default: both fields are always written.  From the
fields of an object it takes these two, and leaves all others.
-/

namespace LiveState

open Json

namespace Settings

theorem eq_str_of_readText {v : Json} {s : String} (h : readText v = .ok s) :
    v = .str s := by
  cases v with
  | str t =>
    cases h
    rfl
  | _ => cases h

theorem eq_strings_of_readTexts {v : Json} {texts : List String}
    (h : readTexts v = .ok texts) : v = .arr (texts.map .str) := by
  cases v with
  | arr items =>
    have read : items.mapM readText = .ok texts := h
    congr 1
    clear h
    induction items generalizing texts with
    | nil =>
      cases read
      rfl
    | cons item items ih =>
      cases first : readText item with
      | error e =>
        rw [List.mapM_cons, first] at read
        cases read
      | ok s =>
        cases rest : items.mapM readText with
        | error e =>
          rw [List.mapM_cons, first, rest] at read
          cases read
        | ok ss =>
          rw [List.mapM_cons, first, rest] at read
          cases read
          rw [eq_str_of_readText first, ih rest, List.map_cons]
  | _ => cases h

theorem eq_bool_of_readFlag {v : Json} {b : Bool} (h : readFlag v = .ok b) :
    v = .bool b := by
  cases v with
  | bool c =>
    cases h
    rfl
  | _ => cases h

theorem exists_of_readField {β : Type} {fields : Fields} {name : String}
    {read : Json → Except ShapeError β} {x : β} (h : readField fields name read = .ok x) :
    ∃ v, fields.get? name = some v ∧ read v = .ok x := by
  rw [readField] at h
  cases there : fields.get? name with
  | none =>
    rw [there] at h
    cases h
  | some v =>
    rw [there] at h
    exact ⟨v, rfl, h⟩

end Settings

namespace Layout

open Settings

/-! ## What is written -/

def bytes (l : Layout) : ByteArray := l.document.compact.toUTF8

theorem encode_eq (l : Layout) : encode l = .ok l.bytes := rfl

theorem isEmpty_bytes (l : Layout) : l.bytes.isEmpty = false := isEmpty_compact_obj _

def members (l : Layout) : Fields :=
  [("columns", .arr (l.columns.map .str)), ("compact", .bool l.compact)]

theorem parseBytes?_bytes (l : Layout) :
    parseBytes? l.bytes = some (.obj (Fields.ofMembers l.members)) := by
  refine parseBytes?_compact_obj fun f hf => ?_
  -- A column is a text, which is neither deep nor a number.
  have texts : ∀ v ∈ l.columns.map Json.str, ∃ s, v = .str s := by
    intro v hv
    obtain ⟨s, -, rfl⟩ := List.mem_map.1 hv
    exact ⟨s, rfl⟩
  rcases List.mem_cons.1 hf with rfl | hf
  · constructor
    · refine .arr fun v hv => ?_
      obtain ⟨s, rfl⟩ := texts v hv
      exact .str s
    · refine .arr fun v hv => ?_
      obtain ⟨s, rfl⟩ := texts v hv
      exact .str s
  · cases List.mem_singleton.1 hf
    exact ⟨.bool _, .bool _⟩

theorem readTexts_strings (texts : List String) :
    readTexts (.arr (texts.map .str)) = .ok texts := by
  show (texts.map Json.str).mapM readText = .ok texts
  induction texts with
  | nil => rfl
  | cons s rest ih =>
    rw [List.map_cons, List.mapM_cons, ih]
    rfl

theorem decode_bytes (l default : Layout) : decode default l.bytes = .ok l := by
  have columns : (Fields.ofMembers l.members).get? "columns" =
      some (.arr (l.columns.map .str)) := Fields.get?_ofMembers ..
  have compact : (Fields.ofMembers l.members).get? "compact" = some (.bool l.compact) :=
    Fields.get?_ofMembers ..
  have filled (defaults : Fields) :
      ofFields ((Fields.ofMembers l.members).backfill defaults) = .ok l := by
    simp only [ofFields, readField, Fields.get?_backfill columns, Fields.get?_backfill compact,
      readTexts_strings]
    rfl
  rw [decode, parseBytes?_bytes]
  have stored : ofStored default (Fields.ofMembers l.members) = .ok l := filled _
  simp only [stored]
  rfl

/-! ## What is read -/

variable {l : Layout} {merged : Fields}

theorem defaultFields_eq (l : Layout) : defaultFields l = .ok (Fields.ofMembers l.members) := rfl

def Knows (k : String) : Prop := k = "columns" ∨ k = "compact"

instance (k : String) : Decidable (Knows k) := inferInstanceAs (Decidable (_ ∨ _))

/-- A layout has the fields that it knows. -/
theorem get?_members_eq_none_iff (l : Layout) (k : String) :
    (Fields.ofMembers l.members).get? k = none ↔ ¬ Knows k := by
  have members : l.members.reverse =
      [("compact", .bool l.compact), ("columns", .arr (l.columns.map .str))] := rfl
  rw [Fields.get?_ofMembers, members, Fields.get?_cons, Fields.get?_cons, Knows]
  by_cases first : "compact" = k
  · simp [← first]
  · by_cases second : "columns" = k
    · simp [← second]
    · simp [first, second, Ne.symm first, Ne.symm second, Fields.get?]

theorem get?_of_ofFields (read : ofFields merged = .ok l) :
    merged.get? "columns" = some (.arr (l.columns.map .str)) ∧
      merged.get? "compact" = some (.bool l.compact) := by
  cases columns : readField merged "columns" readTexts with
  | error e =>
    rw [ofFields, columns] at read
    cases read
  | ok texts =>
    cases compact : readField merged "compact" readFlag with
    | error e =>
      rw [ofFields, columns, compact] at read
      cases read
    | ok flag =>
      rw [ofFields, columns, compact] at read
      cases read
      obtain ⟨v, there, texts⟩ := exists_of_readField columns
      obtain ⟨b, here, flag⟩ := exists_of_readField compact
      rw [there, here, eq_strings_of_readTexts texts, eq_bool_of_readFlag flag]
      exact ⟨rfl, rfl⟩

/-- A layout that was read from fields has those of them that it knows, and no others. -/
theorem get?_members_of_ofFields (read : ofFields merged = .ok l) (k : String) :
    (Fields.ofMembers l.members).get? k = if Knows k then merged.get? k else none := by
  obtain ⟨columns, compact⟩ := get?_of_ofFields read
  have members : l.members.reverse =
      [("compact", .bool l.compact), ("columns", .arr (l.columns.map .str))] := rfl
  rw [Fields.get?_ofMembers, members, Fields.get?_cons, Fields.get?_cons]
  by_cases first : "columns" = k
  · have other : ¬ "compact" = k := by
      rw [← first]
      decide
    have known : Knows k := .inl first.symm
    rw [if_neg other, if_pos first, if_pos known, ← first, columns]
  · by_cases second : "compact" = k
    · have known : Knows k := .inr second.symm
      rw [if_pos second, if_pos known, ← second, compact]
    · have unknown : ¬ Knows k := fun known => known.elim (first ·.symm) (second ·.symm)
      rw [if_neg second, if_neg first, if_neg unknown]
      rfl

end Layout

end LiveState
