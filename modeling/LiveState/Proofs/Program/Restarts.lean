import Mathlib
import LiveState.Program
import LiveState.Proofs.Session.Commands

/-! # Runs one after another

Runs of the program on one settings file, each of which reads the settings, writes them back and
may change them, have the same effect as changing one record in memory.
-/

namespace LiveState

namespace Command

/-- What is stored after a command, if this was stored before the session began. -/
def leaves (c : Command) (stored : Option ByteArray) : Option ByteArray :=
  if c.sets then some (c.after (.loaded stored)).bytes
  else
    match UserSettings.read stored with
    | .ok u => some u.bytes
    | .error _ => stored

variable {c : Command} {u : UserSettings} {stored : Option ByteArray}

theorem after_lasting (c : Command) (h : u.Lasting) : (c.after u).Lasting := by
  cases c with
  | setLimit limit => exact h.withLimit _
  | reset => exact UserSettings.lasting_initial
  | settings | panels names => exact h

theorem after_of_not_sets (h : c.sets = false) (u : UserSettings) : c.after u = u := by
  cases c with
  | setLimit limit | reset => cases h
  | settings | panels names => rfl

/-- What is left is loaded as what the command has made of the settings. -/
theorem loaded_leaves (c : Command) (h : (UserSettings.loaded stored).Lasting) :
    UserSettings.loaded (c.leaves stored) = c.after (.loaded stored) := by
  unfold leaves
  split
  · exact UserSettings.loaded_bytes (c.after_lasting h)
  · next sets =>
    rw [after_of_not_sets (Bool.not_eq_true _ ▸ sets)]
    cases found : UserSettings.read stored with
    | ok u =>
      have same : UserSettings.loaded stored = u := by
        rw [UserSettings.loaded, found]
      rw [same] at h ⊢
      exact UserSettings.loaded_bytes h
    | error e => rfl

end Command

namespace Program

open Session

/-- What a run is called with. -/
structure Invocation where
  words : List String
  surroundings : Surroundings

/-- The files after runs one after another. -/
def filesAfter (runs : List Invocation) (files : FileTree) : FileTree :=
  runs.foldl (fun files r => (run r.words r.surroundings files).2) files

/-- What runs one after another make of a record in memory: those that come to nothing leave it
    as it is. -/
def recordAfter (runs : List Invocation) (u : UserSettings) : UserSettings :=
  runs.foldl (fun u r =>
    match plan r.words r.surroundings with
    | .ok p => p.command.after u
    | .error _ => u) u

theorem filesAfter_append (runs more : List Invocation) (files : FileTree) :
    filesAfter (runs ++ more) files = filesAfter more (filesAfter runs files) :=
  List.foldl_append

theorem recordAfter_append (runs more : List Invocation) (u : UserSettings) :
    recordAfter (runs ++ more) u = recordAfter more (recordAfter runs u) :=
  List.foldl_append

variable {files : FileTree} {path : String} {l : Location} {table : OrderedMap String Stored}
  {stored : Option ByteArray}

/-! ## One run -/

theorem get?_tableAfter (c : Command) (has : table.get? settingsKey = stored.map .bytes) :
    (tableAfter (begun table stored) c (.loaded stored)).get? settingsKey =
      (c.leaves stored).map .bytes := by
  unfold tableAfter Command.leaves begun
  split
  · simp
  · cases UserSettings.read stored with
    | ok u => simp
    | error e => exact has

theorem written_of_last (earlier : List (Language.Outcome (Step UserSettings) (Reply UserSettings)
      (Session.Incident UserSettings)))
    {o : Language.Outcome (Step UserSettings) (Reply UserSettings)
      (Session.Incident UserSettings)} {bytes : ByteArray} {failure : Option Command.Failure}
    (h : o.ending = .ok (.output bytes failure)) : written (earlier ++ [o]) = (bytes, failure) := by
  obtain ⟨ending, events⟩ := o
  cases h
  rw [written, List.getLast?_concat]

/-- What a session does that makes a context and executes a command in it. -/
theorem session_run (serves : files.Serves path l table)
    (ordinary : Media.isPrivateName path = false)
    (has : table.get? settingsKey = stored.map .bytes) (c : Command) :
    (Session.run files (steps ⟨path⟩ c)).2.Maintains path l
        (tableAfter (begun table stored) c (.loaded stored)) (c.after (.loaded stored)) ∧
      (c = .settings ∨ c = .reset → written (Session.run files (steps ⟨path⟩ c)).1 =
        ((c.after (.loaded stored)).shown, none)) := by
  have weight : stepsWeight (steps ⟨path⟩ c) = 2 := by
    simp [steps, stepsWeight, Step.weight]
  obtain ⟨r, w, starts, maintains, named⟩ :=
    exec_bootstrap (ρ := UserSettings) serves ordinary has 1
  have starts : ((language UserSettings).exec 2 (.bootstrap "" ⟨path⟩)).perform
      (World.start files) = (.ok r, w) := starts
  rw [Session.run, weight, steps]
  simp only [Language.run, Language.runStep_eq, starts]
  refine ⟨exec_execute_maintains maintains named c 1, fun shows => ?_⟩
  exact written_of_last [_] (exec_execute_shows maintains named shows 1)

theorem execute_serves {p : Plan} (serves : files.Serves path l table)
    (ordinary : Media.isPrivateName path = false)
    (has : table.get? settingsKey = stored.map .bytes) (here : p.config.settingsPath = path) :
    (p.execute files).2.Serves path l
        (tableAfter (begun table stored) p.command (.loaded stored)) ∧
      (p.command = .settings ∨ p.command = .reset →
        (p.execute files).1.output = (p.command.after (.loaded stored)).shown ∧
          (p.execute files).1.exitCode = 0) := by
  obtain ⟨filter, earlier, ⟨place⟩, c⟩ := p
  obtain rfl : path = place := Eq.symm here
  obtain ⟨maintains, shows⟩ := session_run serves ordinary has c
  constructor
  · -- The databases are closed whether or not the command has failed.
    have left : (Plan.execute ⟨filter, earlier, ⟨path⟩, c⟩ files).2 =
        (Session.run files (steps ⟨path⟩ c)).2.media.files.closeUnneeded fun _ => false := by
      simp only [Plan.execute]
      split <;> rfl
    rw [left]
    exact maintains.files.close
  · intro about
    simp [Plan.execute, shows about]

/-! ## All runs -/

/-- What is true between runs: the path leads to a database in which these bytes are stored, and
    they stand for these settings. -/
structure Keeps (files : FileTree) (path : String) (l : Location) (stored : Option ByteArray)
    (u : UserSettings) : Prop where
  serves : ∃ table, files.Serves path l table ∧ table.get? settingsKey = stored.map .bytes
  loaded : UserSettings.loaded stored = u
  lasting : u.Lasting

variable {u : UserSettings} {r : Invocation} {runs : List Invocation}

theorem run_of_ok {p : Plan} (planned : plan r.words r.surroundings = .ok p) (files : FileTree) :
    run r.words r.surroundings files = p.execute files := by
  simp [run, planned]

theorem run_of_error {result : Result} (rejected : plan r.words r.surroundings = .error result)
    (files : FileTree) : run r.words r.surroundings files = (result, files) := by
  simp [run, rejected]

/-- A run is a change of the record in memory. -/
theorem Keeps.run (h : Keeps files path l stored u) (ordinary : Media.isPrivateName path = false)
    (here : ∀ p, plan r.words r.surroundings = .ok p → p.config.settingsPath = path) :
    ∃ stored', Keeps (run r.words r.surroundings files).2 path l stored' (recordAfter [r] u) := by
  obtain ⟨table, serves, has⟩ := h.serves
  obtain ⟨rfl, lasting⟩ := And.intro h.loaded h.lasting
  cases planned : plan r.words r.surroundings with
  | error result =>
    have record : recordAfter [r] (.loaded stored) = .loaded stored := by
      simp [recordAfter, planned]
    rw [run_of_error planned, record]
    exact ⟨stored, h⟩
  | ok p =>
    have record : recordAfter [r] (.loaded stored) = p.command.after (.loaded stored) := by
      simp [recordAfter, planned]
    rw [run_of_ok planned, record]
    obtain ⟨after, -⟩ := execute_serves serves ordinary has (here p planned)
    exact ⟨p.command.leaves stored, ⟨_, after, get?_tableAfter p.command has⟩,
      p.command.loaded_leaves lasting, p.command.after_lasting lasting⟩

/-- Runs one after another are changes of the record one after another. -/
theorem Keeps.filesAfter (h : Keeps files path l stored u)
    (ordinary : Media.isPrivateName path = false)
    (here : ∀ r ∈ runs, ∀ p, plan r.words r.surroundings = .ok p → p.config.settingsPath = path) :
    ∃ stored', Keeps (filesAfter runs files) path l stored' (recordAfter runs u) := by
  -- On the runs, since each of them changes the files, what is stored and the record.
  induction runs generalizing files stored u with
  | nil => exact ⟨stored, h⟩
  | cons r rest ih =>
    obtain ⟨stored', kept⟩ := h.run ordinary (here r List.mem_cons_self)
    exact ih kept fun s hs => here s (List.mem_cons_of_mem r hs)

/-- What cannot be read is left alone by runs that do not set the settings. -/
theorem serves_filesAfter_of_unreadable (runs : List Invocation) {e : Settings.LoadError}
    (serves : files.Serves path l table) (ordinary : Media.isPrivateName path = false)
    (has : table.get? settingsKey = stored.map .bytes)
    (unreadable : UserSettings.read stored = .error e)
    (here : ∀ r ∈ runs, ∀ p, plan r.words r.surroundings = .ok p →
      p.config.settingsPath = path ∧ p.command.sets = false) :
    (Program.filesAfter runs files).Serves path l table := by
  induction runs generalizing files with
  | nil => exact serves
  | cons r rest ih =>
    refine ih ?_ fun s hs => here s (List.mem_cons_of_mem r hs)
    show (run r.words r.surroundings files).2.Serves path l table
    cases planned : plan r.words r.surroundings with
    | error result =>
      rw [run_of_error planned]
      exact serves
    | ok p =>
      obtain ⟨place, sets⟩ := here r List.mem_cons_self p planned
      -- Neither starting nor a command that sets nothing writes over what cannot be read.
      have same : tableAfter (begun table stored) p.command (.loaded stored) = table := by
        simp [tableAfter, sets, begun, unreadable]
      obtain ⟨after, -⟩ := execute_serves serves ordinary has place
      rw [run_of_ok planned]
      exact same ▸ after

/-- Runs of the program on one settings file, in any order and number, are steps of one record in
    memory, which begins as what is loaded from what is stored at first: each run that shows the
    settings shows this record as it is then.  Runs that come to nothing leave the files as they
    are, and what is stored but cannot be read stays as it is as long as nobody sets the
    settings. -/
theorem runs_follow_record (files : FileTree) (earlier : List Invocation) (r : Invocation)
    {path : String} {l : Location} {table : OrderedMap String Stored} {stored : Option ByteArray}
    (ordinary : Media.isPrivateName path = false) (serves : files.Serves path l table)
    (has : table.get? settingsKey = stored.map .bytes)
    (whole : ∀ bytes v, stored = some bytes → Settings.parseBytes? bytes = some v → v.Whole)
    (here : ∀ s ∈ earlier ++ [r], ∀ p, plan s.words s.surroundings = .ok p →
      p.config.settingsPath = path) :
    (∀ p, plan r.words r.surroundings = .ok p → p.command = .settings ∨ p.command = .reset →
      (run r.words r.surroundings (filesAfter earlier files)).1.output =
          (recordAfter (earlier ++ [r]) (.loaded stored)).shown ∧
        (run r.words r.surroundings (filesAfter earlier files)).1.exitCode = 0) ∧
    (∀ result, plan r.words r.surroundings = .error result →
      (run r.words r.surroundings (filesAfter earlier files)).2 = filesAfter earlier files) ∧
    (∀ e, UserSettings.read stored = .error e →
      (∀ s ∈ earlier ++ [r], ∀ p, plan s.words s.surroundings = .ok p → p.command.sets = false) →
      (run r.words r.surroundings (filesAfter earlier files)).2.Serves path l table) := by
  refine ⟨fun p planned shows => ?_, fun result rejected => ?_, fun e unreadable idle => ?_⟩
  · -- The record follows the earlier runs, and then this one.
    have first : Keeps files path l stored (.loaded stored) :=
      ⟨⟨table, serves, has⟩, rfl, UserSettings.lasting_loaded whole⟩
    obtain ⟨stored', kept⟩ := first.filesAfter ordinary fun s hs =>
      here s (List.mem_append_left [r] hs)
    obtain ⟨table', serves', has'⟩ := kept.serves
    have last : r ∈ earlier ++ [r] := List.mem_append_right earlier (List.mem_singleton.2 rfl)
    have record : recordAfter (earlier ++ [r]) (.loaded stored) =
        p.command.after (.loaded stored') := by
      rw [recordAfter_append, ← kept.loaded]
      simp [recordAfter, planned]
    rw [run_of_ok planned, record]
    exact (execute_serves serves' ordinary has' (here r last p planned)).2 shows
  · rw [run_of_error rejected]
  · have all := serves_filesAfter_of_unreadable (earlier ++ [r]) serves ordinary has unreadable
      fun s hs p planned => ⟨here s hs p planned, idle s hs p planned⟩
    rwa [filesAfter_append] at all

/-- Runs on a file in which something is stored that cannot be read: one that mounts panels, one
    that is misspelled, one that sets the limit, and one that shows the settings. -/
theorem runs_follow_record_unreadable :
    let surroundings : Surroundings := ⟨⟨"/", none, some "/s"⟩, none⟩
    let stored : Option ByteArray := some ⟨#[123]⟩
    let table : OrderedMap String Stored := ⟨[(settingsKey, .bytes ⟨#[123]⟩)]⟩
    let files : FileTree := ⟨⟨[((1, ["s"]), .database table)]⟩, [], .empty⟩
    let earlier : List Invocation := [⟨["panels", "ParseError"], surroundings⟩,
      ⟨["nonsense"], surroundings⟩, ⟨["set-limit", "5"], surroundings⟩]
    let r : Invocation := ⟨["settings"], surroundings⟩
    Media.isPrivateName "/s" = false ∧ files.Serves "/s" ["s"] table ∧
      table.get? settingsKey = stored.map .bytes ∧
      (∀ bytes v, stored = some bytes → Settings.parseBytes? bytes = some v → v.Whole) ∧
      (∀ s ∈ earlier ++ [r], ∀ p, plan s.words s.surroundings = .ok p →
        p.config.settingsPath = "/s") ∧
      (run r.words r.surroundings (filesAfter earlier files)).1.output =
          (⟨5, []⟩ : UserSettings).shown ∧
      (run r.words r.surroundings (filesAfter earlier files)).1.exitCode = 0 := by
  intro surroundings stored table files earlier r
  have serves : files.Serves "/s" ["s"] table := by
    refine FileTree.AtRest.serves ⟨⟨rfl, rfl, rfl, rfl⟩, rfl⟩ ⟨by cbv, .inl ?_, .inl ⟨?_, ?_⟩⟩ ?_ ?_
    all_goals cbv
  have whole : ∀ bytes v, stored = some bytes → Settings.parseBytes? bytes = some v → v.Whole := by
    intro bytes v same parsed
    have unreadable : Settings.parseBytes? ⟨#[123]⟩ = none := by cbv
    rw [← Option.some.inj same, unreadable] at parsed
    cases parsed
  have here : ∀ s ∈ earlier ++ [r], ∀ p, plan s.words s.surroundings = .ok p →
      p.config.settingsPath = "/s" := by
    intro s hs p planned
    have place : (plan s.words s.surroundings).map (·.config.settingsPath) = .ok "/s" := by
      simp only [earlier, r, List.cons_append, List.nil_append, List.mem_cons, List.not_mem_nil,
        or_false] at hs
      rcases hs with rfl | rfl | rfl | rfl
      · cbv
      · cbv at planned
        cases planned
      · cbv
      · cbv
    rw [planned] at place
    exact Except.ok.inj place
  have record : recordAfter (earlier ++ [r]) (.loaded stored) = ⟨5, []⟩ := by cbv
  have shows : (plan r.words r.surroundings).map (·.command) = .ok .settings := by cbv
  cases planned : plan r.words r.surroundings with
  | error result =>
    rw [planned] at shows
    cases shows
  | ok p =>
    rw [planned] at shows
    have shown := (runs_follow_record files earlier r (by cbv) serves rfl whole here).1 p planned
      (.inl (Except.ok.inj shows))
    rw [record] at shown
    exact ⟨by cbv, serves, rfl, whole, here, shown⟩

end Program

end LiveState
