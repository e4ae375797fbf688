import LiveState.Proofs.Session.Reloading
import LiveState.Proofs.Settings.Healing

/-! # Healing stored records

Loading a record fills in the fields that are missing in what is stored, and writes the whole
record back.  Once that has succeeded, nothing is left to be filled in: however often the record is
loaded again, it is the same, and what is stored stays as it is.
-/

namespace LiveState.Session

open Json

/-! ## Loading again and again -/

section

variable {ρ : Type} [Inhabited ρ] [Settings.Record ρ] {w : World ρ} {storage key : String} {i : Nat}
  {medium : Medium} {default v : ρ} {bytes stored : ByteArray}

/-- The medium holds these bytes; and to load the record from it so many times, with this default,
    gives `v` each time, without a fallback, and leaves the bytes there. -/
def World.ReloadsFor (medium : Medium) (key : String) (default v : ρ) (bytes : ByteArray) :
    Nat → World ρ → Prop
  | 0, w => w.media.holding medium key = some (.bytes bytes)
  | n + 1, w => w.media.holding medium key = some (.bytes bytes) ∧
      ∀ (nested : Nested (World ρ) (Step ρ)) (storage : String), ∃ w' lines,
        (loadRecord nested ⟨medium, some storage⟩ key default).perform w =
          (.ok w.records.size, w') ∧
        w'.journal.toList = w.journal.toList ++ lines ∧ w'.valueOf w.records.size = v ∧
        fallbacks lines = [] ∧ ReloadsFor medium key default v bytes n w'

/-- A value that is read back from its bytes is loaded as often as one likes. -/
theorem reloadsFor_of_holding (holds : w.media.holding medium key = some (.bytes bytes))
    (reads : ∃ stored, (w.media.read medium key).answer? = some (.ok stored))
    (encoded : Settings.encode v = .ok bytes) (nonempty : bytes.isEmpty = false)
    (decoded : Settings.decode default bytes = .ok v) (n : Nat) :
    w.ReloadsFor medium key default v bytes n := by
  induction n generalizing w with
  | zero => exact holds
  | succ n ih =>
    refine ⟨holds, fun nested storage => ?_⟩
    obtain ⟨_, w', ran, rfl, lines, begins, tried, still⟩ :=
      load_of_holding holds reads encoded nonempty decoded nested storage
    -- Each load leaves a medium that answers, and holds what it held before.
    obtain ⟨stored, answers⟩ := reads
    exact ⟨w', lines, ran, begins.journal, begins.value.value, tried.noFallback,
      ih still (tried.answers stored answers)⟩

omit [Inhabited ρ] in
/-- A medium holds the value that it was tried to write, if the attempt has succeeded. -/
theorem Tried.holding_of_succeeded {before after : Media} {lines : List (Line ρ)}
    (h : Tried i medium storage key v before lines after) (has : before.Has medium)
    (encoded : Settings.encode v = .ok bytes)
    (accepted : ∀ a ∈ attempts i lines, a.succeeded = true) :
    after.holding medium key = some (.bytes bytes) := by
  have attempted := h.attempted
  simp only [encoded, Except.toOption, Option.map_some, Option.toList_some] at attempted
  obtain ⟨a, only, same⟩ := List.map_eq_singleton_iff.1 attempted
  have succeeded := accepted a (only ▸ List.mem_singleton_self a)
  cases same
  rw [h.holding has, written, only]
  simp [succeeded]

/-- Bytes that stand for `v` are loaded as `v`.  If the attempt to write it back succeeds, the
    medium holds the bytes of `v`; and if `v` is read back from these, it stays. -/
theorem load_heals (reads : (w.media.read medium key).answer? = some (.ok (some bytes)))
    (nonempty : bytes.isEmpty = false) (decoded : Settings.decode default bytes = .ok v)
    (encoded : Settings.encode v = .ok stored) (nested : Nested (World ρ) (Step ρ))
    (storage : String) :
    ∃ w' lines,
      (loadRecord nested ⟨medium, some storage⟩ key default).perform w =
        (.ok w.records.size, w') ∧
      w'.journal.toList = w.journal.toList ++ lines ∧ w'.valueOf w.records.size = v ∧
      fallbacks lines = [] ∧
      ((∀ a ∈ attempts w.records.size lines, a.succeeded = true) →
        w'.media.holding medium key = some (.bytes stored) ∧
        (stored.isEmpty = false → Settings.decode default stored = .ok v →
          ∀ n, w'.ReloadsFor medium key default v stored n)) := by
  have accepted : Settings.ofAnswer default (.ok (some bytes)) = .ok v := by
    rw [Settings.ofAnswer, nonempty]
    exact decoded
  obtain ⟨_, w', ran, rfl, lines, begins, tried⟩ := loadRecord_reads nested storage reads accepted
  refine ⟨w', lines, ran, begins.journal, begins.value.value, tried.noFallback, fun succeeded => ?_⟩
  have has := Media.has_of_holding (Media.holding_of_read reads)
  have holds := tried.holding_of_succeeded has encoded succeeded
  exact ⟨holds, fun some again =>
    reloadsFor_of_holding holds (tried.answers _ reads) encoded some again⟩

/-- Bytes that stand for nothing lead to a fallback. -/
theorem load_fallsBack {e : Settings.LoadError}
    (reads : (w.media.read medium key).answer? = some (.ok (some bytes)))
    (nonempty : bytes.isEmpty = false) (decoded : Settings.decode default bytes = .error e)
    (nested : Nested (World ρ) (Step ρ)) (storage : String) :
    ∃ w' lines,
      (loadRecord nested ⟨medium, some storage⟩ key default).perform w =
        (.ok w.records.size, w') ∧
      w'.journal.toList = w.journal.toList ++ lines ∧ fallbacks lines = [(key, e)] := by
  have rejected : Settings.ofAnswer default (.ok (some bytes)) = .error e := by
    rw [Settings.ofAnswer, nonempty]
    exact decoded
  obtain ⟨_, w', ran, rfl, lines, begins, -, told, -⟩ :=
    loadRecord_fallsBack nested storage reads rejected
  exact ⟨w', lines, ran, begins.journal, told⟩

end

/-! ## Merged records -/

open Settings

variable {key : String} {medium : Medium} {bytes : ByteArray} {given : Fields}

/-- An object that is stored is loaded from its fields and those of the default that it lacks,
    unless the load falls back because they do not make a record. -/
theorem load_object {ρ : Type} [Inhabited ρ] [Record ρ] {w : World ρ} {default : ρ}
    {defaults : Fields} {bytesOf : ρ → ByteArray}
    (reads : (w.media.read medium key).answer? = some (.ok (some bytes)))
    (parsed : parseBytes? bytes = some (.obj given))
    (provides : defaultFields default = .ok defaults)
    (encoded : ∀ v : ρ, encode v = .ok (bytesOf v)) (nested : Nested (World ρ) (Step ρ))
    (storage : String) :
    ∃ w' lines,
      (loadRecord nested ⟨medium, some storage⟩ key default).perform w =
        (.ok w.records.size, w') ∧
      w'.journal.toList = w.journal.toList ++ lines ∧
      (fallbacks lines = [] →
        ∃ v, Record.ofFields (given.backfill defaults) = .ok v ∧
          w'.valueOf w.records.size = v ∧
          ((∀ a ∈ attempts w.records.size lines, a.succeeded = true) →
            w'.media.holding medium key = some (.bytes (bytesOf v)) ∧
            ((bytesOf v).isEmpty = false → decode default (bytesOf v) = .ok v →
              ∀ n, w'.ReloadsFor medium key default v (bytesOf v) n))) := by
  have nonempty := isEmpty_of_parseBytes? parsed
  have decoded : decode default bytes = _ := decode_obj provides parsed
  -- The merged fields make a record, or the load falls back.
  cases read : (Record.ofFields (given.backfill defaults) : Except ShapeError ρ) with
  | error e =>
    rw [read] at decoded
    obtain ⟨w', lines, ran, journal, told⟩ := load_fallsBack reads nonempty decoded nested storage
    refine ⟨w', lines, ran, journal, fun none => ?_⟩
    rw [told] at none
    cases none
  | ok v =>
    rw [read] at decoded
    obtain ⟨w', lines, ran, journal, value, -, heals⟩ :=
      load_heals reads nonempty decoded (encoded v) nested storage
    exact ⟨w', lines, ran, journal, fun _ => ⟨v, rfl, value, heals⟩⟩

/-- An object that is stored is loaded as any value with the fields of the default that it lacks. -/
theorem load_merges (w : World Json) (nested : Nested (World Json) (Step Json)) (storage : String)
    {default : Json} {defaults : Fields} (provides : defaultFields default = .ok defaults)
    (reads : (w.media.read medium key).answer? = some (.ok (some bytes)))
    (parsed : parseBytes? bytes = some (.obj given)) :
    ∃ merged w' lines, given.Merges defaults merged ∧
      (loadRecord nested ⟨medium, some storage⟩ key default).perform w =
        (.ok w.records.size, w') ∧
      w'.journal.toList = w.journal.toList ++ lines ∧
      w'.valueOf w.records.size = .obj merged ∧ fallbacks lines = [] ∧
      ((∀ a ∈ attempts w.records.size lines, a.succeeded = true) →
        w'.media.holding medium key = some (.bytes (compact (.obj merged)).toUTF8) ∧
        ((∀ f ∈ merged, IsPlain f) → ∀ n, w'.ReloadsFor medium key default (.obj merged)
          (compact (.obj merged)).toUTF8 n)) := by
  have merges := Fields.merges_backfill (formed_of_parseBytes? parsed).1 defaults
  have decoded : decode default bytes = .ok (Json.obj (given.backfill defaults)) :=
    decode_obj provides parsed
  obtain ⟨w', lines, ran, journal, value, told, heals⟩ := load_heals reads
    (isEmpty_of_parseBytes? parsed) decoded (encode_eq _) nested storage
  refine ⟨_, w', lines, merges, ran, journal, value, told, fun accepted => ?_⟩
  obtain ⟨holds, again⟩ := heals accepted
  refine ⟨holds, fun plain => again (isEmpty_compact_obj _) ?_⟩
  exact decode_merged provides merges rfl (parseBytes?_compact_sorted merges.sorted plain)

/-- An object that is stored is loaded as settings of a user, if the merged fields give a limit. -/
theorem load_merges_user (w : World UserSettings)
    (nested : Nested (World UserSettings) (Step UserSettings)) (storage : String)
    (default : UserSettings) (reads : (w.media.read medium key).answer? = some (.ok (some bytes)))
    (parsed : parseBytes? bytes = some (.obj given)) :
    ∃ merged w' lines, given.Merges (Fields.ofMembers default.members) merged ∧
      (loadRecord nested ⟨medium, some storage⟩ key default).perform w =
        (.ok w.records.size, w') ∧
      w'.journal.toList = w.journal.toList ++ lines ∧
      (fallbacks lines = [] →
        merged.get? UserSettings.limitField =
            some (.int (w'.valueOf w.records.size).resultLimit.toInt) ∧
          (w'.valueOf w.records.size).extra = merged.erase UserSettings.limitField ∧
          ((∀ a ∈ attempts w.records.size lines, a.succeeded = true) →
            w'.media.holding medium key = some (.bytes (w'.valueOf w.records.size).bytes) ∧
            ((∀ f ∈ merged, IsPlain f) → ∀ n, w'.ReloadsFor medium key default
              (w'.valueOf w.records.size) (w'.valueOf w.records.size).bytes n))) := by
  have merges := Fields.merges_backfill (formed_of_parseBytes? parsed).1
    (Fields.ofMembers default.members)
  obtain ⟨w', lines, ran, journal, loads⟩ := load_object reads parsed default.defaultFields_eq
    UserSettings.encode_eq nested storage
  refine ⟨_, w', lines, merges, ran, journal, fun told => ?_⟩
  obtain ⟨u, read, value, heals⟩ := loads told
  obtain ⟨limit, extra⟩ := UserSettings.ofFields_eq_ok_iff.1 read
  rw [value]
  refine ⟨limit, extra, fun accepted => ?_⟩
  obtain ⟨holds, again⟩ := heals accepted
  refine ⟨holds, fun plain => again u.isEmpty_bytes ?_⟩
  exact decode_merged default.defaultFields_eq merges read
    (UserSettings.parseBytes?_bytes_of_ofFields merges.sorted plain read)

/-- What is loaded from a stored object has exactly the fields of the object and those of the
    default that it lacks, whatever their values: nothing is merged inside them.  For any value this
    is the record; for settings of a user, unless the load falls back, these fields give the limit,
    and all others are kept beside it.  If all numbers in what is stored are whole, and so are those
    in the fields that were filled in, which are not nested too deep, and if the record has been
    written back: then it is loaded as often as one likes with the same default, is the same each
    time, without a fallback, and what is stored stays as it is. -/
theorem healing_merges_and_lasts :
    (∀ (w : World Json) (nested : Nested (World Json) (Step Json)) (medium : Medium)
      (storage key : String) (members : List (String × Json)) (bytes : ByteArray) (given : Fields),
      (w.media.read medium key).answer? = some (.ok (some bytes)) →
      parseBytes? bytes = some (.obj given) →
      ∃ merged w' lines, given.Merges (Fields.ofMembers members) merged ∧
        (loadRecord nested ⟨medium, some storage⟩ key (.obj members)).perform w =
          (.ok w.records.size, w') ∧
        w'.journal.toList = w.journal.toList ++ lines ∧
        w'.valueOf w.records.size = .obj merged ∧ fallbacks lines = [] ∧
        (Whole (.obj given) →
          (∀ f ∈ Fields.ofMembers members, given.get? f.1 = none → IsPlain f) →
          (∀ a ∈ attempts w.records.size lines, a.succeeded = true) →
          ∃ stored, ∀ n, w'.ReloadsFor medium key (.obj members) (.obj merged) stored n)) ∧
    ∀ (w : World UserSettings) (nested : Nested (World UserSettings) (Step UserSettings))
      (medium : Medium) (storage key : String) (default : UserSettings) (bytes : ByteArray)
      (given : Fields),
      (w.media.read medium key).answer? = some (.ok (some bytes)) →
      parseBytes? bytes = some (.obj given) →
      ∃ merged w' lines, given.Merges (Fields.ofMembers default.members) merged ∧
        (loadRecord nested ⟨medium, some storage⟩ key default).perform w =
          (.ok w.records.size, w') ∧
        w'.journal.toList = w.journal.toList ++ lines ∧
        (fallbacks lines = [] →
          merged.get? UserSettings.limitField =
              some (.int (w'.valueOf w.records.size).resultLimit.toInt) ∧
            (w'.valueOf w.records.size).extra = merged.erase UserSettings.limitField ∧
            (Whole (.obj given) →
              (∀ f ∈ Fields.ofMembers default.members, given.get? f.1 = none → IsPlain f) →
              (∀ a ∈ attempts w.records.size lines, a.succeeded = true) →
              ∃ stored, ∀ n, w'.ReloadsFor medium key default (w'.valueOf w.records.size) stored
                n)) := by
  constructor
  · intro w nested medium storage key members bytes given reads parsed
    obtain ⟨merged, w', lines, merges, ran, journal, value, told, heals⟩ :=
      load_merges w nested storage (defaultFields_obj members) reads parsed
    refine ⟨merged, w', lines, merges, ran, journal, value, told, fun whole filled accepted => ?_⟩
    exact ⟨_, (heals accepted).2 (merges.plain (isPlain_of_parseBytes? parsed whole) filled)⟩
  · intro w nested medium storage key default bytes given reads parsed
    obtain ⟨merged, w', lines, merges, ran, journal, loads⟩ :=
      load_merges_user w nested storage default reads parsed
    refine ⟨merged, w', lines, merges, ran, journal, fun told => ?_⟩
    obtain ⟨limit, extra, heals⟩ := loads told
    refine ⟨limit, extra, fun whole filled accepted => ?_⟩
    exact ⟨_, (heals accepted).2 (merges.plain (isPlain_of_parseBytes? parsed whole) filled)⟩

/-- A stored field that is null stays, although the default has an object there, and a field with a
    list in it is filled in. -/
theorem healing_merges_and_lasts_null :
    let members := [("a", .obj [("b", .int 1)]), ("c", .obj [("d", .arr [.int 2])])]
    let opened := ((language Json).run 1
      [.medium "m" (.openAs (.memory [("k", "\x7b\"a\":null\x7d".toUTF8)]))]
      (World.start (.empty []))).2
    let loaded := ((loadRecord ((language Json).nested ((language Json).exec 0))
      ⟨.region 0, some "m"⟩ "k" (.obj members)).perform opened).2
    let healed : Json := .obj [("a", .null), ("c", .obj [("d", .arr [.int 2])])]
    loaded.valueOf 0 = healed ∧
      ∃ stored, ∀ n, loaded.ReloadsFor (.region 0) "k" (.obj members) healed stored n := by
  intro members opened loaded healed
  obtain ⟨merged, w', lines, merges, ran, journal, value, -, lasts⟩ :=
    healing_merges_and_lasts.1 opened ((language Json).nested ((language Json).exec 0))
      (.region 0) "m" "k" members "\x7b\"a\":null\x7d".toUTF8 [("a", .null)] rfl rfl
  obtain rfl : loaded = w' := congrArg Prod.snd ran
  have same : loaded.valueOf 0 = healed := rfl
  obtain rfl : lines = opened.since loaded := (World.since_eq journal).symm
  have accepted : ∀ a ∈ attempts opened.records.size (opened.since loaded),
      a.succeeded = true := by
    simp only [loaded, opened, members]
    decide +kernel
  refine ⟨same, same ▸ value ▸ lasts (.obj ?_) ?_ accepted⟩
  · exact List.forall_mem_singleton.2 .null
  · -- The first field is there, and the other one is plain.
    refine List.forall_mem_cons.2 ⟨nofun, List.forall_mem_singleton.2 fun _ => ⟨?_, ?_⟩⟩
    · refine .obj (List.pairwise_singleton ..) (List.forall_mem_singleton.2 ?_)
      exact .arr (List.forall_mem_singleton.2 (.int ⟨by decide, by decide⟩))
    · exact .obj (List.forall_mem_singleton.2 (.arr (List.forall_mem_singleton.2 (.int 2))))

/-- A list in a list, and so on. -/
def nest : Nat → Json
  | 0 => .null
  | n + 1 => .arr [nest n]

/-- A number in the default that is not whole is written so that it is read as another one, and so
    the record changes when it is loaded again.  A field of the default that is nested too deep is
    written so that it cannot be read: the second load falls back. -/
theorem healing_drifts :
    let opened := ((language Json).run 1
      [.medium "m" (.openAs (.memory [("k", "\x7b\x7d".toUTF8)]))] (World.start (.empty []))).2
    let number := (Json.parse? "\x7b\"x\":5e32\x7d").getD .null
    let first := (language Json).runStep 1 (.load "r" "m" "k" number) opened
    let second := (language Json).runStep 1 (.load "s" "m" "k" number) first.2
    let deep := (language Json).runStep 1 (.load "r" "m" "k" (.obj [("x", nest 127)])) opened
    let lost := (language Json).runStep 1 (.load "s" "m" "k" (.obj [("x", nest 127)])) deep.2
    ((attempts 0 first.1.events).map (fun a => (a.bytes, a.succeeded)) =
        [("\x7b\"x\":5.0000000000000004e+32\x7d".toUTF8, true)] ∧
      (attempts 1 second.1.events).map (fun a => (a.bytes, a.succeeded)) =
        [("\x7b\"x\":5e+32\x7d".toUTF8, true)] ∧
      (first.2.valueOf 0).compact ≠ (second.2.valueOf 1).compact) ∧
    (attempts 0 deep.1.events).map (·.succeeded) = [true] ∧ fallbacks deep.1.events = [] ∧
      (fallbacks lost.1.events).length = 1 := by
  decide +kernel

end LiveState.Session
