import LiveState.Proofs.Observable.Alone
import LiveState.Proofs.Session.Writeback
import LiveState.Proofs.Settings.Loading

/-! # Loading

How loading a record ends, whatever its medium answers.  A record that was read is tried to be
written back at once; after a fallback nothing is written, and the medium is left as it was.
-/

namespace LiveState.Session

variable {ρ : Type} [Inhabited ρ] [Settings.Record ρ] {w : World ρ} {storage key : String} {i : Nat}
  {medium : Medium} {answer : Except StorageError (Option ByteArray)} {default v : ρ}
  {nested : Nested (World ρ) (Step ρ)}

/-! ## Reading -/

omit [Inhabited ρ] [Settings.Record ρ] in
theorem store_read_yields (reads : (w.media.read medium key).answer? = some answer) :
    ((Access.mk medium (some storage)).store.read key : Act (World ρ) _).Yields w
      fun r w' => r = answer ∧ w' = w.note (.reading key storage) := by
  refine .bind (.change (.look ?_))
  show (respond (w.media.read medium key)).Yields _ _
  cases response : w.media.read medium key with
  | answered a =>
    rw [response] at reads
    cases reads
    exact .pure ⟨rfl, rfl⟩
  | failed e =>
    rw [response] at reads
    cases reads
    exact .pure ⟨rfl, rfl⟩
  | panicked =>
    rw [response] at reads
    cases reads

omit [Inhabited ρ] in
theorem readRecord_tells (reads : (w.media.read medium key).answer? = some answer) (default : ρ) :
    (Settings.readRecord (Access.mk medium (some storage)).store key default).Yields w
      fun r w' => r = Settings.ofAnswer default answer ∧ w' = w.note (.reading key storage) := by
  refine .bind ((store_read_yields reads).mono fun r w' => ?_)
  rintro ⟨rfl, rfl⟩
  rcases r with e | _ | bytes <;> exact .pure ⟨rfl, rfl⟩

/-! ## The first call of the subscriber that writes back -/

/-- A record that nobody listens to yet. -/
structure World.Fresh (w : World ρ) (i : Nat) (key : String) (v : ρ) : Prop where
  small : i < w.records.size
  key : w.keyOf i = key
  value : (w.records.getD i .blank).settings.value = .new v

omit [Settings.Record ρ] in
theorem World.Fresh.cell_enlisted (h : w.Fresh i key v) (a : Access) (skip : Bool) :
    (recordSite a i).value.cell ((recordSite a i).value.enlisted (.keeper skip) w) =
      (Observable.new v).register (.keeper skip) := by
  rw [Session.cell_enlisted h.small]
  have cell : (recordSite a i).value.cell w = .new v := h.value
  rw [cell]

omit [Settings.Record ρ] in
theorem World.Fresh.keyOf_enlisted (h : w.Fresh i key v) (a : Access)
    (l : Listener (Step ρ) ρ) : ((recordSite a i).value.enlisted l w).keyOf i = key := by
  have adjusted := getD_modify h.small (fun k : Kept (Step ρ) ρ =>
    { k with settings := { k.settings with value := k.settings.value.register l } }) .blank
  exact (congrArg (fun k : Kept (Step ρ) ρ => k.settings.key) adjusted).trans h.key

/-- Registering the subscriber that writes back means calling it once. -/
theorem keep_yields_of_deliver (h : w.Fresh i key v) {a : Access} {skip : Bool}
    {post : Unit → World ρ → Prop}
    (turn : ((recordSite a i).value.deliver ((recordSite a i).call nested) none 0 v).Yields
      ((recordSite a i).value.enlisted (.keeper skip) w) post) :
    ((recordSite a i).keep nested skip).Yields w post := by
  have cell : (recordSite a i).value.cell w = .new v := h.value
  refine .bind (Place.subscribe_yields (cell_adjust h.small _) (fun _ _ => rfl) (by rw [cell]; rfl)
    ?_)
  rw [cell]
  exact turn.mono fun _ _ holds => .pure holds

/-- From `w` on the lines have been written, and record `i` holds `v`, which only the subscriber
    that writes it back listens to. -/
structure World.Begins (w w' : World ρ) (i : Nat) (v : ρ) (lines : List (Line ρ)) : Prop where
  journal : w'.journal.toList = w.journal.toList ++ lines
  value : (w'.records.getD i .blank).settings.value.KeptAlone v

omit [Inhabited ρ] in
theorem Tried.cons {before after : Media} {lines : List (Line ρ)} {e : Line ρ}
    (h : Tried i medium storage key v before lines after)
    (writing : ∀ key storage bytes, e ≠ .happened (.writing key storage bytes))
    (stores : stored? i e = none) (falls : fallback? e = none) :
    Tried i medium storage key v before (e :: lines) after where
  idle := by
    show Idle ([e] ++ lines)
    exact idle_append h.idle h.nonempty
  nonempty := List.cons_ne_nil e lines
  attempted := (attempts_cons_of_ne writing).symm ▸ h.attempted
  unchanged := by
    rw [stored, List.filterMap_cons_none stores]
    exact h.unchanged
  noFallback := by
    rw [fallbacks, List.filterMap_cons_none falls]
    exact h.noFallback
  holding has := by
    rw [h.holding has, written, written, attempts_cons_of_ne writing]
  answers := h.answers

/-- A record that was read is tried to be written back at once. -/
theorem keep_tries (h : w.Fresh i key v) :
    ((recordSite ⟨medium, some storage⟩ i).keep nested false).Yields w fun _ w' =>
      ∃ lines, w.Begins w' i v lines ∧ Tried i medium storage key v w.media lines w'.media := by
  refine keep_yields_of_deliver h ?_
  have enlisted := h.cell_enlisted ⟨medium, some storage⟩ false
  obtain ⟨u, lines, turn, turned, tried⟩ := deliver_tries nested (i := i)
    (congrArg (Observable.callback? · 0) enlisted) medium storage none v
  rw [h.keyOf_enlisted] at tried
  have cell : (recordSite ⟨medium, some storage⟩ i).value.cell w = .new v := h.value
  refine ⟨(), u, turn, .happened (.settings i (.value (.registered 0))) :: lines, ⟨?_, ?_⟩, ?_⟩
  · rw [turned.journal, Place.enlisted, cell]
    show (w.journal.push _).toList ++ lines = _
    rw [Array.toList_push, List.append_assoc]
    rfl
  · rw [turned.records]
    show ((recordSite ⟨medium, some storage⟩ i).value.cell _).KeptAlone v
    rw [enlisted]
    exact .register v
  · exact tried.cons (by simp) rfl rfl

theorem keep_skips (h : w.Fresh i key v) (a : Access) :
    ((recordSite a i).keep nested true).Yields w fun _ w' =>
      ∃ lines, w.Begins w' i v lines ∧ attempts i lines = [] ∧ fallbacks lines = [] ∧
        w'.media = w.media := by
  refine keep_yields_of_deliver h ?_
  have enlisted := h.cell_enlisted a true
  have noted : (recordSite a i).value.cell ((recordSite a i).value.note (.called none 0 v)
      ((recordSite a i).value.enlisted (.keeper true) w)) =
        (Observable.new v).register (.keeper true) := enlisted
  have small : i < ((recordSite a i).value.note (.called none 0 v)
      ((recordSite a i).value.enlisted (.keeper true) w)).records.size :=
    Nat.lt_of_lt_of_eq h.small (Array.size_modify ..).symm
  have settled : ((recordSite a i).value.cell ((recordSite a i).value.adjust
      (·.adjustCallback 0 fun _ => .keeper false) ((recordSite a i).value.note (.called none 0 v)
        ((recordSite a i).value.enlisted (.keeper true) w)))).KeptAlone v := by
    rw [cell_adjust small, noted]
    exact .skipped v
  have cell : (recordSite a i).value.cell w = .new v := h.value
  refine Place.deliver_yields (congrArg (Observable.callback? · 0) enlisted) (.change ?_)
  refine ⟨[.happened (.settings i (.value (.registered 0))),
    .happened (.settings i (.value (.called none 0 v))),
    .happened (.settings i (.value (.returned none 0)))], ⟨?_, ?_⟩, rfl, rfl, rfl⟩
  · rw [Place.enlisted, cell]
    show (((w.journal.push _).push _).push _).toList = _
    simp only [Array.toList_push, List.append_assoc]
    rfl
  · exact settled

/-! ## Whole loads -/

omit [Settings.Record ρ] in
theorem fresh_push (w : World ρ) (key : String) (default v : ρ) (a : Access) :
    { w with records := w.records.push ⟨.new key default v, a⟩ }.Fresh w.records.size key v where
  small := by simp
  key := by simp [World.keyOf, Array.getD, Settings.new]
  value := by simp [Array.getD, Settings.new]

/-- A record that can be read is loaded as it was read, and tried to be written back once. -/
theorem loadRecord_reads (nested : Nested (World ρ) (Step ρ)) (storage : String)
    (reads : (w.media.read medium key).answer? = some answer)
    (read : Settings.ofAnswer default answer = .ok v) :
    (loadRecord nested ⟨medium, some storage⟩ key default).Yields w fun i w' =>
      i = w.records.size ∧ ∃ lines, w.Begins w' i v lines ∧
        Tried i medium storage key v w.media lines w'.media := by
  refine .bind ((readRecord_tells reads default).mono fun r u => ?_)
  rintro ⟨rfl, rfl⟩
  simp only [read]
  refine .bind (.look (.bind (.change (.pure ?_))))
  refine .bind ((keep_tries (fresh_push _ key default v _)).mono fun _ w' => ?_)
  rintro ⟨lines, begins, tried⟩
  refine .pure ⟨rfl, .happened (.reading key storage) :: lines, ⟨?_, begins.value⟩, ?_⟩
  · rw [begins.journal]
    show (w.journal.push _).toList ++ lines = _
    rw [Array.toList_push, List.append_assoc]
    rfl
  · exact tried.cons (by simp) rfl rfl

/-- A record that cannot be read is given up for the default: this is told once, nothing is
    written, and the media are as they were. -/
theorem loadRecord_fallsBack (nested : Nested (World ρ) (Step ρ)) (storage : String)
    (reads : (w.media.read medium key).answer? = some answer)
    {e : Settings.LoadError} (read : Settings.ofAnswer default answer = .error e) :
    (loadRecord nested ⟨medium, some storage⟩ key default).Yields w fun i w' =>
      i = w.records.size ∧ ∃ lines, w.Begins w' i default lines ∧ attempts i lines = [] ∧
        fallbacks lines = [(key, e)] ∧ w'.media = w.media := by
  refine .bind ((readRecord_tells reads default).mono fun r u => ?_)
  rintro ⟨rfl, rfl⟩
  simp only [read]
  refine .bind (.change (.bind (.look (.bind (.change (.pure ?_))))))
  refine .bind ((keep_skips (fresh_push _ key default default _) _).mono fun _ w' => ?_)
  rintro ⟨lines, begins, none, silent, same⟩
  refine .pure ⟨rfl, .happened (.reading key storage) ::
    .happened (.notice (.fellBackToDefault key e)) :: lines, ⟨?_, begins.value⟩, none, ?_, same⟩
  · rw [begins.journal]
    show ((w.journal.push _).push _).toList ++ lines = _
    simp only [Array.toList_push, List.append_assoc]
    rfl
  · show (key, e) :: fallbacks lines = _
    rw [silent]

/-! ## User settings -/

def World.valueOf (w : World ρ) (i : Nat) : ρ := (w.records.getD i .blank).settings.value.value

/-- Loading decides about whatever is stored.  Unless the medium panics, the settings of a user are
    loaded in one of three ways, and nothing is interrupted.  If nothing or no bytes are stored, the
    default is loaded and tried to be written.  If an object is stored that has a usable limit or
    none, it is loaded and tried to be written in its present shape.  In every other case the
    default is loaded, a fallback is told once, and nothing is written. -/
theorem load_decides (w : World UserSettings)
    (nested : Nested (World UserSettings) (Step UserSettings)) (medium : Medium)
    (storage key : String) {answer : Except StorageError (Option ByteArray)}
    (reads : (w.media.read medium key).answer? = some answer) :
    ∃ w' lines,
      (loadRecord nested ⟨medium, some storage⟩ key .initial).perform w =
        (.ok w.records.size, w') ∧
      w'.journal.toList = w.journal.toList ++ lines ∧
      match UserSettings.verdict answer with
      | .absent =>
        w'.valueOf w.records.size = .initial ∧ fallbacks lines = [] ∧
          (attempts w.records.size lines).map (fun a => (a.key, a.storage, a.bytes)) =
            [(key, storage, UserSettings.initial.bytes)]
      | .readable u =>
        w'.valueOf w.records.size = u ∧ fallbacks lines = [] ∧
          (attempts w.records.size lines).map (fun a => (a.key, a.storage, a.bytes)) =
            [(key, storage, u.bytes)]
      | .unreadable =>
        w'.valueOf w.records.size = .initial ∧ (∃ e, fallbacks lines = [(key, e)]) ∧
          attempts w.records.size lines = [] ∧ w'.media = w.media := by
  -- The verdict is stated apart from the reader; that they agree rules out the mixed cases.
  have agrees := UserSettings.ofAnswer_initial answer
  cases read : Settings.ofAnswer UserSettings.initial answer with
  | ok u =>
    obtain ⟨i, w', ran, rfl, lines, begins, tried⟩ := loadRecord_reads nested storage reads read
    refine ⟨w', lines, ran, begins.journal, ?_⟩
    rw [read] at agrees
    cases verdict : UserSettings.verdict answer with
    | absent =>
      rw [verdict] at agrees
      cases agrees
      exact ⟨begins.value.value, tried.noFallback, tried.attempted⟩
    | readable u' =>
      rw [verdict] at agrees
      cases agrees
      exact ⟨begins.value.value, tried.noFallback, tried.attempted⟩
    | unreadable =>
      rw [verdict] at agrees
      cases agrees
  | error e =>
    obtain ⟨i, w', ran, rfl, lines, begins, none, told, same⟩ := loadRecord_fallsBack
      nested storage reads read
    refine ⟨w', lines, ran, begins.journal, ?_⟩
    rw [read] at agrees
    cases verdict : UserSettings.verdict answer with
    | unreadable => exact ⟨begins.value.value, ⟨e, told⟩, none, same⟩
    | absent =>
      rw [verdict] at agrees
      cases agrees
    | readable u =>
      rw [verdict] at agrees
      cases agrees

/-- An object with two limits, the last of which is none, is given up and stays as it is. -/
theorem load_decides_repeated :
    let bytes := "\x7b\"result_limit\":1,\"result_limit\":null\x7d".toUTF8
    let w := ((language UserSettings).run 1 [.medium "m" (.openAs (.memory [("k", bytes)]))]
      (World.start (.empty []))).2
    (w.media.read (.region 0) "k").answer? = some (.ok (some bytes)) ∧
      ∃ w' lines,
        (loadRecord ⟨fun _ _ => pure (), fun _ => pure ()⟩ ⟨.region 0, some "m"⟩ "k"
          .initial).perform w = (.ok w.records.size, w') ∧
        w'.journal.toList = w.journal.toList ++ lines ∧
        w'.valueOf w.records.size = UserSettings.initial ∧ (∃ e, fallbacks lines = [("k", e)]) ∧
        attempts w.records.size lines = [] ∧ w'.media = w.media :=
  ⟨rfl, load_decides _ _ (.region 0) "m" "k" rfl⟩

end LiveState.Session
