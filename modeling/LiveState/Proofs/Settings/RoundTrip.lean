import LiveState.Proofs.Json.RoundTrip
import LiveState.Settings.User

/-! # User settings read back

Settings that were read from stored bytes whose numbers are whole are *lasting*: they are read
back as they are from the bytes that are stored for them.  So they remain when the limit is
changed.  If they have other numbers, these may drift, and the rest is read back.
-/

namespace LiveState

open Json Settings

/-! ## Objects -/

theorem Settings.isEmpty_compact_obj (members : List (String × Json)) :
    (compact (.obj members)).toUTF8.isEmpty = false := by
  have some : (compact (.obj members)).utf8ByteSize ≠ 0 := by
    intro none
    have text := congrArg String.toList (String.utf8ByteSize_eq_zero_iff.1 none)
    rw [compact, String.toList_ofList] at text
    cases text
  exact beq_eq_false_iff_ne.2 some

theorem Settings.parseBytes?_legible_obj {members : List (String × Json)}
    (h : ∀ f ∈ members, Formed 126 f.2 ∧ Legible f.2) :
    parseBytes? (compact (.obj members)).toUTF8 =
      some (.obj (Fields.ofMembers (members.map fun f => (f.1, f.2.reread)))) := by
  -- The bytes are those of a text.
  have text : String.fromUTF8? (compact (.obj members)).toUTF8 = some (compact (.obj members)) :=
    dif_pos (compact (.obj members)).isValidUTF8
  rw [parseBytes?, text]
  exact parse?_compact_obj h

theorem Settings.parseBytes?_compact_obj {members : List (String × Json)}
    (h : ∀ f ∈ members, Formed 126 f.2 ∧ Whole f.2) :
    parseBytes? (compact (.obj members)).toUTF8 = some (.obj (Fields.ofMembers members)) := by
  rw [parseBytes?_legible_obj fun f hf => ⟨(h f hf).1, (h f hf).2.legible⟩,
    map_reread_of_whole fun f hf => (h f hf).2]

namespace UserSettings

/-! ## Settings that last -/

/-- Settings that are read back as they are. -/
structure Lasting (u : UserSettings) : Prop where
  sorted : Fields.Sorted u.extra
  /-- The limit stands for itself. -/
  unlimited : u.extra.get? limitField = none
  formed : ∀ f ∈ u.extra, Formed 126 f.2
  whole : ∀ f ∈ u.extra, Whole f.2

/-- Settings all of whose fields can be read from their texts. -/
structure Legible (u : UserSettings) : Prop where
  sorted : Fields.Sorted u.extra
  unlimited : u.extra.get? limitField = none
  legible : ∀ f ∈ u.extra, Formed 126 f.2 ∧ f.2.Legible

/-- What is read from the bytes that are stored for settings. -/
def reread (u : UserSettings) : UserSettings :=
  { u with extra := u.extra.map fun f => (f.1, f.2.reread) }

variable {u : UserSettings}

theorem Lasting.legible (h : u.Lasting) : u.Legible :=
  ⟨h.sorted, h.unlimited, fun f hf => ⟨h.formed f hf, (h.whole f hf).legible⟩⟩

theorem Lasting.reread_eq (h : u.Lasting) : u.reread = u := by
  rw [reread, map_reread_of_whole h.whole]

theorem lasting_initial : initial.Lasting := ⟨.nil, rfl, nofun, nofun⟩

theorem Lasting.withLimit (h : u.Lasting) (limit : Int64) :
    Lasting { u with resultLimit := limit } :=
  ⟨h.sorted, h.unlimited, h.formed, h.whole⟩

/-! ## Bytes -/

def bytes (u : UserSettings) : ByteArray := u.document.compact.toUTF8

theorem encode_eq (u : UserSettings) : encode u = .ok u.bytes := rfl

theorem isEmpty_bytes (u : UserSettings) : u.bytes.isEmpty = false := isEmpty_compact_obj _

/-- The limit is read back, and so are the further fields, but for the numbers that drift. -/
theorem parseBytes?_bytes (h : u.Legible) :
    parseBytes? u.bytes =
      some (.obj (Fields.ofMembers ((limitField, .int u.resultLimit.toInt) :: u.reread.extra))) := by
  have limit : Formed 126 (.int u.resultLimit.toInt) := by
    have least := u.resultLimit.le_toInt
    have greatest := u.resultLimit.toInt_lt
    exact .int ⟨by omega, by omega⟩
  exact parseBytes?_legible_obj (List.forall_mem_cons.2 ⟨⟨limit, .int _⟩, h.legible⟩)

/-! ## Reading and writing -/

theorem readInteger_toInt (n : Int64) : readInteger (.int n.toInt) = .ok n := by
  have fits : fitsInt64 n.toInt = true := by
    have least := n.le_toInt
    have greatest := n.toInt_lt
    simp only [fitsInt64, Bool.and_eq_true, decide_eq_true_eq]
    omega
  rw [readInteger, if_pos fits, Int64.ofInt_toInt]

/-- A default without further fields fills in the limit, and nothing else. -/
theorem ofStored_limit (limit : Int64) (fields : Fields) :
    ofStored ⟨limit, []⟩ fields = ofFields (fields.insertIfNew limitField (.int limit.toInt)) :=
  rfl

theorem ofStored_initial (fields : Fields) :
    ofStored initial fields = ofFields (fields.insertIfNew limitField (.int 21)) := rfl

theorem get?_reread (u : UserSettings) (k : String) :
    u.reread.extra.get? k = (u.extra.get? k).map Json.reread := Fields.get?_map ..

theorem get?_ofMembers_document (h : Fields.Sorted u.extra) (n : Json) (k : String) :
    (Fields.ofMembers ((limitField, n) :: u.extra)).get? k =
      (u.extra.get? k).or (Fields.get? [(limitField, n)] k) := by
  rw [Fields.ofMembers, List.foldl_cons, Fields.get?_foldl_insert, h.get?_reverse]
  rfl

theorem ofStored_document (sorted : Fields.Sorted u.extra)
    (unlimited : u.extra.get? limitField = none) (limit : Int64) :
    ofStored ⟨limit, []⟩ (Fields.ofMembers ((limitField, .int u.resultLimit.toInt) :: u.extra)) =
      .ok u := by
  have there : (Fields.ofMembers ((limitField, .int u.resultLimit.toInt) :: u.extra)).get?
      limitField = some (.int u.resultLimit.toInt) := by
    rw [get?_ofMembers_document sorted, unlimited]
    rfl
  have extra : (Fields.ofMembers ((limitField, .int u.resultLimit.toInt) :: u.extra)).erase
      limitField = u.extra := by
    refine ((Fields.sorted_ofMembers _).erase limitField).ext sorted fun k => ?_
    by_cases here : k = limitField
    · rw [here, Fields.get?_erase_self, unlimited]
    · rw [Fields.get?_erase_of_ne here, get?_ofMembers_document sorted, Fields.get?_cons,
        if_neg (Ne.symm here)]
      exact Option.or_none
  simp only [ofStored_limit, Fields.insertIfNew, there]
  simp only [Option.isSome_some, if_true, ofFields, readField, there, readInteger_toInt, extra]
  rfl

/-- Legible settings are read back but for the numbers that drift, with whatever limit in the
    default. -/
theorem decode_legible (h : u.Legible) (limit : Int64) :
    decode ⟨limit, []⟩ u.bytes = .ok u.reread := by
  have unlimited : u.reread.extra.get? limitField = none := by
    rw [get?_reread, h.unlimited]
    rfl
  have document := ofStored_document (u := u.reread) (h.sorted.map Json.reread) unlimited limit
  rw [decode, parseBytes?_bytes h]
  exact congrArg (Except.mapError LoadError.shape) document

/-- Lasting settings are read back as they are. -/
theorem decode_bytes (h : u.Lasting) (limit : Int64) : decode ⟨limit, []⟩ u.bytes = .ok u := by
  rw [decode_legible h.legible, h.reread_eq]

theorem extra_of_ofFields {fields : Fields} (h : ofFields fields = .ok u) :
    u.extra = fields.erase limitField := by
  rw [ofFields] at h
  cases limit : readField fields limitField readInteger with
  | error e =>
    rw [limit] at h
    cases h
  | ok n =>
    rw [limit] at h
    cases h
    rfl

theorem mem_of_mem_erase {fields : Fields} {f : String × Json}
    (h : f ∈ (fields.insertIfNew limitField (.int 21)).erase limitField) : f ∈ fields := by
  obtain ⟨there, other⟩ := List.mem_filter.1 h
  rw [Fields.insertIfNew] at there
  split at there
  · exact there
  · rcases Fields.mem_insert there with rfl | there
    · simp at other
    · exact there

/-- What is read from bytes whose numbers are whole lasts. -/
theorem lasting_of_decode {bytes : ByteArray} (read : decode initial bytes = .ok u)
    (whole : ∀ v, parseBytes? bytes = some v → Whole v) : u.Lasting := by
  unfold decode at read
  split at read
  · cases read
  · next fields parsed =>
    obtain ⟨text, -, parsed'⟩ := Option.bind_eq_some_iff.1 parsed
    have formed : Formed maxDepth (.obj fields) := formed_of_parse? parsed'
    have whole := (whole _ parsed).members
    obtain ⟨sorted, formed⟩ : Fields.Sorted fields ∧ ∀ f ∈ fields, Formed 126 f.2 := by
      cases formed with
      | obj sorted h => exact ⟨sorted, h⟩
    -- What is kept is what was there, without the limit, whether or not it was filled in.
    have extra : u.extra =
        Fields.erase (Fields.insertIfNew limitField (.int 21) fields) limitField := by
      rw [ofStored_initial] at read
      cases given : ofFields (Fields.insertIfNew limitField (.int 21) fields) with
      | error e =>
        rw [given] at read
        cases read
      | ok u' =>
        rw [given] at read
        cases read
        exact extra_of_ofFields given
    constructor
    · rw [extra]
      exact (sorted.insertIfNew ..).erase _
    · rw [extra]
      exact Fields.get?_erase_self
    · exact fun f hf => formed f (mem_of_mem_erase (extra ▸ hf))
    · exact fun f hf => whole f (mem_of_mem_erase (extra ▸ hf))
  · cases read

/-! ## Loading -/

/-- The settings that stored bytes stand for.  Without any they are those of somebody who never
    changed them. -/
def read (stored : Option ByteArray) : Except LoadError UserSettings :=
  match stored with
  | none => .ok initial
  | some bytes => if bytes.isEmpty then .ok initial else decode initial bytes

/-- The settings that a session begins with: if what is stored cannot be used, the default. -/
def loaded (stored : Option ByteArray) : UserSettings :=
  match read stored with
  | .ok u => u
  | .error _ => initial

theorem read_bytes (h : u.Lasting) : read (some u.bytes) = .ok u := by
  rw [read, isEmpty_bytes]
  exact decode_bytes h 21

theorem loaded_bytes (h : u.Lasting) : loaded (some u.bytes) = u := by
  rw [loaded, read_bytes h]

/-- What is loaded lasts, if the numbers in what is stored are whole. -/
theorem lasting_loaded {stored : Option ByteArray}
    (whole : ∀ bytes v, stored = some bytes → parseBytes? bytes = some v → Whole v) :
    (loaded stored).Lasting := by
  unfold loaded
  split
  · next u found =>
    unfold read at found
    split at found
    · cases found
      exact lasting_initial
    · next bytes =>
      split at found
      · cases found
        exact lasting_initial
      · exact lasting_of_decode found fun v parsed => whole bytes v rfl parsed
  · exact lasting_initial

end UserSettings

end LiveState
