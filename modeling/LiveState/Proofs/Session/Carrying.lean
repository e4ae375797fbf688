import LiveState.Proofs.Session.Healing

/-! # What a load leaves of a stored object

A load writes back what it has read, so the medium then holds what the type of the record has made
of the stored object.  Any value and the settings of a user have a place for fields that they do
not know, and these are carried along.  A layout has none: whatever was stored beside its two
fields is gone as soon as it has been loaded.
-/

namespace LiveState

open Json Settings

/-- The members of an object are those of `given`, and those of `defaults` that `given` lacks; and
    if all of them are plain, they are read back from the text of the object. -/
structure Json.Fields.Carried (given defaults : Fields) (members : List (String × Json)) :
    Prop where
  get?_eq : ∀ k, Fields.get? members k = (given.get? k).or (defaults.get? k)
  parsed : Whole (.obj given) → (∀ f ∈ defaults, given.get? f.1 = none → IsPlain f) →
    ∃ fields, parseBytes? (compact (.obj members)).toUTF8 = some (.obj fields) ∧
      given.Merges defaults fields

/-- Every field of `given` that `defaults` lack is in `fields` with the same value. -/
def Json.Fields.CarriedTo (given defaults fields : Fields) : Prop :=
  ∀ k v, given.get? k = some v → defaults.get? k = none → fields.get? k = some v

namespace Session

/-- Wherever these bytes are stored and a record is loaded with this default: unless the load falls
    back, or its attempt to write the record fails, an object with such members is stored after
    it. -/
def LoadLeaves {ρ : Type} [Inhabited ρ] [Record ρ] (bytes : ByteArray) (default : ρ)
    (such : List (String × Json) → Prop) : Prop :=
  ∀ (w : World ρ) (nested : Nested (World ρ) (Step ρ)) (medium : Medium) (storage key : String),
    (w.media.read medium key).answer? = some (.ok (some bytes)) →
    ∃ w' lines,
      (loadRecord nested ⟨medium, some storage⟩ key default).perform w =
        (.ok w.records.size, w') ∧
      w'.journal.toList = w.journal.toList ++ lines ∧
      (fallbacks lines = [] → (∀ a ∈ attempts w.records.size lines, a.succeeded = true) →
        ∃ members, such members ∧
          w'.media.holding medium key = some (.bytes (compact (.obj members)).toUTF8))

/-- Fields that are those a layout knows carry along an object if the layout knows all of it. -/
theorem carriedTo_iff_knows (default : Layout) {given fields : Fields}
    (left : ∀ k, fields.get? k = if Layout.Knows k then
      (given.get? k).or ((Fields.ofMembers default.members).get? k) else none) :
    given.CarriedTo (Fields.ofMembers default.members) fields ↔
      ∀ k v, given.get? k = some v → Layout.Knows k := by
  constructor
  · intro carried k v there
    refine Decidable.byContradiction fun unknown => ?_
    have found := carried k v there ((default.get?_members_eq_none_iff k).2 unknown)
    rw [left, if_neg unknown] at found
    cases found
  · intro known k v there lacks
    exact absurd (known k v there) ((default.get?_members_eq_none_iff k).1 lacks)

section

variable {bytes : ByteArray} {given : Fields} (parsed : parseBytes? bytes = some (.obj given))

include parsed

theorem value_leaves {default : Json} {defaults : Fields}
    (provides : defaultFields default = .ok defaults) :
    LoadLeaves bytes default (given.Carried defaults) := by
  intro w nested medium storage key reads
  obtain ⟨merged, w', lines, merges, ran, journal, -, -, heals⟩ :=
    load_merges w nested storage provides reads parsed
  refine ⟨w', lines, ran, journal, fun _ accepted => ⟨merged, ⟨merges.get?_eq, ?_⟩,
    (heals accepted).1⟩⟩
  intro whole filled
  have plain := merges.plain (isPlain_of_parseBytes? parsed whole) filled
  exact ⟨merged, parseBytes?_compact_sorted merges.sorted plain, merges⟩

/-- Settings of a user carry along what they do not know. -/
theorem user_leaves (default : UserSettings) :
    LoadLeaves bytes default (given.Carried (Fields.ofMembers default.members)) := by
  intro w nested medium storage key reads
  obtain ⟨w', lines, ran, journal, loads⟩ := load_object reads parsed default.defaultFields_eq
    UserSettings.encode_eq nested storage
  refine ⟨w', lines, ran, journal, fun told accepted => ?_⟩
  obtain ⟨u, read, -, heals⟩ := loads told
  have merges := Fields.merges_backfill (formed_of_parseBytes? parsed).1
    (Fields.ofMembers default.members)
  refine ⟨u.members, ⟨fun k => ?_, fun whole filled => ?_⟩, (heals accepted).1⟩
  · exact (UserSettings.get?_members_of_ofFields read k).trans (merges.get?_eq k)
  · have plain := merges.plain (isPlain_of_parseBytes? parsed whole) filled
    exact ⟨_, UserSettings.parseBytes?_bytes_of_ofFields merges.sorted plain read, merges⟩

/-- A layout leaves the fields that it knows. -/
theorem layout_leaves (default : Layout) :
    LoadLeaves bytes default fun members =>
      ∃ fields : Fields, parseBytes? (compact (.obj members)).toUTF8 = some (.obj fields) ∧
        (∀ k, fields.get? k = if Layout.Knows k then
          (given.get? k).or ((Fields.ofMembers default.members).get? k) else none) ∧
        (given.CarriedTo (Fields.ofMembers default.members) fields ↔
          ∀ k v, given.get? k = some v → Layout.Knows k) := by
  intro w nested medium storage key reads
  obtain ⟨w', lines, ran, journal, loads⟩ := load_object reads parsed default.defaultFields_eq
    Layout.encode_eq nested storage
  refine ⟨w', lines, ran, journal, fun told accepted => ?_⟩
  obtain ⟨l, read, -, heals⟩ := loads told
  have left (k : String) : (Fields.ofMembers l.members).get? k = if Layout.Knows k then
      (given.get? k).or ((Fields.ofMembers default.members).get? k) else none := by
    rw [Layout.get?_members_of_ofFields read, Fields.get?_backfill_eq]
  exact ⟨l.members, ⟨_, l.parseBytes?_bytes, left, carriedTo_iff_knows default left⟩,
    (heals accepted).1⟩

end

/-- What is still stored of an object after it has been loaded.  Any value carries it along, and so
    do the settings of a user: every field stays with its value, also one that neither the default
    nor the program knows.  A layout keeps the two fields that it knows, and no other one; so every
    field that its default lacks is still there if and only if there was none that it does not
    know. -/
theorem fields_left_by_load {bytes : ByteArray} {given : Fields}
    (parsed : parseBytes? bytes = some (.obj given)) :
    (∀ default : Json, ∃ defaults, defaultFields default = .ok defaults ∧
      LoadLeaves bytes default (given.Carried defaults)) ∧
    (∀ default : UserSettings,
      LoadLeaves bytes default (given.Carried (Fields.ofMembers default.members))) ∧
    ∀ default : Layout,
      LoadLeaves bytes default fun members =>
        ∃ fields : Fields, parseBytes? (compact (.obj members)).toUTF8 = some (.obj fields) ∧
          (∀ k, fields.get? k = if Layout.Knows k then
            (given.get? k).or ((Fields.ofMembers default.members).get? k) else none) ∧
          (given.CarriedTo (Fields.ofMembers default.members) fields ↔
            ∀ k v, given.get? k = some v → Layout.Knows k) := by
  refine ⟨fun default => ?_, user_leaves parsed, layout_leaves parsed⟩
  obtain ⟨defaults, provides⟩ : ∃ defaults, defaultFields default = .ok defaults := by
    cases default <;> exact ⟨_, rfl⟩
  exact ⟨defaults, provides, value_leaves parsed provides⟩

/-- A theme that settings of a user do not know is still stored after they have been loaded. -/
theorem fields_left_by_load_theme :
    let opened := ((language UserSettings).run 1
      [.medium "m" (.openAs (.memory [("k", "\x7b\"theme\":\"dark\"\x7d".toUTF8)]))]
      (World.start (.empty []))).2
    let loaded := ((loadRecord ((language UserSettings).nested ((language UserSettings).exec 0))
      ⟨.region 0, some "m"⟩ "k" .initial).perform opened).2
    ∃ members, Fields.get? members "theme" = some (.str "dark") ∧
      loaded.media.holding (.region 0) "k" = some (.bytes (compact (.obj members)).toUTF8) := by
  intro opened loaded
  have parsed : parseBytes? "\x7b\"theme\":\"dark\"\x7d".toUTF8 =
      some (.obj [("theme", .str "dark")]) := rfl
  obtain ⟨w', lines, ran, journal, leaves⟩ := (fields_left_by_load parsed).2.1 .initial opened
    ((language UserSettings).nested ((language UserSettings).exec 0)) (.region 0) "m" "k" rfl
  obtain rfl : loaded = w' := congrArg Prod.snd ran
  obtain rfl : lines = opened.since loaded := (World.since_eq journal).symm
  have told : fallbacks (opened.since loaded) = [] := by
    simp only [loaded, opened]
    decide +kernel
  have accepted : ∀ a ∈ attempts opened.records.size (opened.since loaded),
      a.succeeded = true := by
    simp only [loaded, opened]
    decide +kernel
  obtain ⟨members, carried, holds⟩ := leaves told accepted
  exact ⟨members, carried.get?_eq "theme", holds⟩

/-- A theme that was stored beside a layout is gone after the layout has been loaded, although the
    load has read everything and written it back. -/
theorem layout_drops_theme :
    let opened := ((language Layout).run 1
      [.medium "m" (.openAs (.memory [("k",
        "\x7b\"columns\":[\"a\"],\"compact\":true,\"theme\":\"dark\"\x7d".toUTF8)]))]
      (World.start (.empty []))).2
    let loaded := (language Layout).runStep 1 (.load "r" "m" "k" default) opened
    fallbacks loaded.1.events = [] ∧ (attempts 0 loaded.1.events).map (·.succeeded) = [true] ∧
      loaded.2.media.lookup 0 "k" =
        some "\x7b\"columns\":[\"a\"],\"compact\":true\x7d".toUTF8 := by
  decide +kernel

end Session

end LiveState
