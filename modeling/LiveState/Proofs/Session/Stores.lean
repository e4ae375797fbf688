import Mathlib
import LiveState.Proofs.Storage.Sharing
import LiveState.Proofs.Yields
import LiveState.Session.Language
import LiveState.Settings.User

/-! # Media as maps

What the users of media can tell of them: every medium is a map that is shared by all media with the
same backing store, and every read gives what was written there last.
-/

namespace LiveState.Session

open Location

/-! ## Backing stores -/

/-- What stands behind a medium. -/
inductive Backing where
  | off
  /-- A table in memory; they are counted in the order in which they were made. -/
  | memory (number : Nat)
  | file (location : Location)
  deriving DecidableEq

def Backing.medium : Backing → Medium
  | .off => .disabled
  | .memory i => .region i
  | .file l => .database l

/-- A write that was successful. -/
structure Writing where
  store : Backing
  key : String
  bytes : ByteArray

/-- What has been done with media. -/
structure Stores where
  cwd : Location
  /-- What files held in the beginning. -/
  kept : Location → String → Option ByteArray
  names : String → Option Backing
  /-- How many tables in memory have been made. -/
  made : Nat
  /-- Whether nothing was in the way of a path in the beginning. -/
  clear : String → Prop
  /-- The paths by which files were opened. -/
  opened : List String
  /-- The latest comes first. -/
  writings : List Writing

namespace Stores

/-- Nothing has been done yet.  The paths are those by which files will be opened. -/
def start (files : FileTree) (paths : List String) : Stores :=
  ⟨files.cwd, files.bytesAt, fun _ => none, 0, files.Clear paths, [], []⟩

/-- The bytes of the latest write to a key of a store. -/
def latest (s : Stores) (b : Backing) (key : String) : Option ByteArray :=
  match s.writings.find? fun w => w.store = b ∧ w.key = key with
  | some w => some w.bytes
  | none =>
    match b with
    | .file l => s.kept l key
    | .off | .memory _ => none

def give (s : Stores) (name : String) (b : Backing) : Stores :=
  { s with names := fun other => if other = name then some b else s.names other }

def forget (s : Stores) (name : String) : Stores :=
  { s with names := fun other => if other = name then none else s.names other }

def write (s : Stores) (b : Backing) (key : String) (bytes : ByteArray) : Stores :=
  { s with writings := ⟨b, key, bytes⟩ :: s.writings }

def fill (s : Stores) (b : Backing) (entries : List (String × ByteArray)) : Stores :=
  { s with writings := (entries.reverse.map fun e => ⟨b, e.1, e.2⟩) ++ s.writings }

def make (s : Stores) (name : String) (entries : List (String × ByteArray)) : Stores :=
  { (s.fill (.memory s.made) entries).give name (.memory s.made) with made := s.made + 1 }

def enter (s : Stores) (name path : String) : Stores :=
  { s.give name (.file (resolve s.cwd path)) with opened := path :: s.opened }

/-- What is answered if media are maps, and what has been done then.  Nothing is told of media with
    switches. -/
inductive Moves {ρ : Type} (s : Stores) (name : String) : MediumStep → Reply ρ → Stores → Prop where
  | memory (entries : List (String × ByteArray)) :
      Moves s name (.openAs (.memory entries)) .done (s.make name entries)
  | privateDatabase : Moves s name (.openAs .privateDatabase) .done (s.make name [])
  | disabled : Moves s name (.openAs .disabled) .done (s.give name .off)
  | share {other : String} {b : Backing} (known : s.names other = some b) :
      Moves s name (.openAs (.share other)) .done (s.give name b)
  | shareMissing {other : String} (unknown : s.names other = none) :
      Moves s name (.openAs (.share other)) .missing s
  | file (path : String) : Moves s name (.openAs (.database path)) .done (s.enter name path)
  /-- A path is never refused by which a file was opened, or that was clear in the beginning. -/
  | refused {path : String} (fresh : path ∉ s.opened) (obstructed : ¬ s.clear path)
      (e : StorageError) : Moves s name (.openAs (.database path)) (.storageError e) s
  | close : Moves s name .close .done (s.forget name)
  | readMissing (unknown : s.names name = none) (key : String) : Moves s name (.read key) .missing s
  | readOff (off : s.names name = some .off) (key : String) :
      Moves s name (.read key) (.bytes none) s
  | read {b : Backing} (known : s.names name = some b) (on : b ≠ .off) (key : String) :
      Moves s name (.read key) (.bytes (s.latest b key)) s
  | writeMissing (unknown : s.names name = none) (key : String) (bytes : ByteArray) :
      Moves s name (.write key bytes) .missing s
  | writeOff (off : s.names name = some .off) (key : String) (bytes : ByteArray) :
      Moves s name (.write key bytes) (.storageError .unavailable) s
  | write {b : Backing} (known : s.names name = some b) (on : b ≠ .off) (key : String)
      (bytes : ByteArray) : Moves s name (.write key bytes) .done (s.write b key bytes)

/-- No step is interrupted, and all answers are those of maps. -/
inductive Follows {ρ : Type} :
    Stores → List (String × MediumStep) → List (Except Interrupt (Reply ρ)) → Prop where
  | nil (s : Stores) : Follows s [] []
  | cons {s s' : Stores} {name : String} {step : MediumStep} {reply : Reply ρ}
      {steps : List (String × MediumStep)} {endings : List (Except Interrupt (Reply ρ))}
      (moves : s.Moves name step reply s') (further : Follows s' steps endings) :
      Follows s ((name, step) :: steps) (.ok reply :: endings)

/-! ## The latest write -/

variable {s : Stores} {b b' : Backing} {key key' : String} {bytes : ByteArray}

@[simp] theorem latest_write_self : (s.write b key bytes).latest b key = some bytes := by
  simp [latest, write]

theorem latest_write_of_ne (other : b' ≠ b ∨ key' ≠ key) :
    (s.write b key bytes).latest b' key' = s.latest b' key' := by
  have different : ¬ (b = b' ∧ key = key') := by
    rintro ⟨rfl, rfl⟩
    simp at other
  simp [latest, write, different]

theorem fill_cons (e : String × ByteArray) (entries : List (String × ByteArray)) :
    s.fill b (e :: entries) = (s.write b e.1 e.2).fill b entries := by
  simp [fill, write]

theorem latest_fill_of_ne (other : b' ≠ b) (entries : List (String × ByteArray)) (key : String) :
    (s.fill b entries).latest b' key = s.latest b' key := by
  induction entries generalizing s with
  | nil => rfl
  | cons e entries ih => rw [fill_cons, ih, latest_write_of_ne (.inl other)]

theorem latest_fill (entries : List (String × ByteArray)) (empty : ∀ key, s.latest b key = none)
    (key : String) : (s.fill b entries).latest b key = (OrderedMap.ofList entries).get? key := by
  have built (m : OrderedMap String ByteArray) (same : ∀ key, s.latest b key = m.get? key) :
      (s.fill b entries).latest b key =
        (entries.foldl (fun m e => m.insert e.1 e.2) m).get? key := by
    clear empty
    induction entries generalizing s m with
    | nil => exact same key
    | cons e entries ih =>
      rw [fill_cons]
      refine ih _ fun key => ?_
      by_cases here : key = e.1
      · subst here
        rw [latest_write_self, OrderedMap.get?_insert_self]
      · rw [latest_write_of_ne (.inr here), OrderedMap.get?_insert_of_ne here, same]
  exact built .empty empty

end Stores

/-! ## Sessions with media only -/

/-- A step that opens, shares, closes, reads or writes a medium without switches.  Databases are
    opened by a path to a file. -/
def MediumStep.IsPlain : MediumStep → Prop
  | .openAs (.switched _ _) | .turn _ _ => False
  | .openAs (.database path) => Media.isPrivateName path = false
  | .openAs (.memory _) | .openAs (.share _) | .openAs .disabled | .openAs .privateDatabase
  | .close | .read _ | .write _ _ => True

def MediumStep.path? : MediumStep → Option String
  | .openAs (.database path) => some path
  | _ => none

abbrev Plan : Type := List (String × MediumStep)

variable {ρ : Type}

def Plan.paths (plan : Plan) : List String := plan.filterMap fun step => step.2.path?

def Plan.steps (plan : Plan) : List (Step ρ) := plan.map fun step => .medium step.1 step.2

theorem Plan.stepsWeight_steps (plan : Plan) :
    stepsWeight (plan.steps : List (Step ρ)) = plan.length := by
  induction plan with
  | nil => rfl
  | cons step plan ih =>
    show 1 + stepsWeight (Plan.steps plan : List (Step ρ)) = plan.length + 1
    rw [ih, Nat.add_comm]

variable {w : World ρ} {s : Stores} {paths : List String} {name : String}

/-- Whether a backing store is there to be used. -/
def World.Offers (w : World ρ) (paths : List String) (s : Stores) : Backing → Prop
  | .off => True
  | .memory i => i < s.made
  | .file l => (∃ path ∈ paths, resolve s.cwd path = l) ∧
      (w.media.files.usages.get? l).isSome = true

/-- The media of a world hold what is known of them. -/
structure World.Backs (w : World ρ) (paths : List String) (s : Stores) : Prop where
  cwd : w.media.files.cwd = s.cwd
  names : ∀ name, w.storages.get? name = (s.names name).map Backing.medium
  made : w.media.regions.size = s.made
  memory : ∀ i key, w.media.lookup i key = s.latest (.memory i) key
  files : w.media.files.Keeps paths fun l => s.latest (.file l)
  clear : ∀ path ∈ paths, s.clear path → w.media.files.Clear paths path
  opened : ∀ path ∈ s.opened, path ∈ paths ∧ w.media.files.Reachable path
  offers : ∀ name b, s.names name = some b → w.Offers paths s b

theorem backs_start {files : FileTree} (ordinary : files.Ordinary paths) :
    (World.start files : World ρ).Backs paths (.start files paths) where
  cwd := rfl
  names _ := rfl
  made := rfl
  memory _ _ := rfl
  files := ordinary.keeps
  clear _ _ := id
  opened _ member := nomatch member
  offers _ _ known := nomatch known

theorem needs_of_named {l : Location} (named : w.storages.get? name = some (.database l)) :
    w.needs l = true := by
  obtain ⟨e, found, there⟩ := Option.map_eq_some_iff.1 named
  have needed : (w.storages.entries.any fun e => decide (e.2 = .database l)) = true :=
    List.any_eq_true.2 ⟨e, List.mem_of_find?_eq_some found, by simp [there]⟩
  simp [World.needs, needed]

namespace World.Backs

theorem record (h : w.Backs paths s) (e : Event (Step ρ) (Reply ρ) (Incident ρ)) :
    (w.record e).Backs paths s := ⟨h.1, h.2, h.3, h.4, h.5, h.6, h.7, h.8⟩

/-- The files may change as long as they hold what is known of them, and nobody is cut off. -/
theorem refile (h : w.Backs paths s) {files : FileTree}
    (keeps : files.Keeps paths fun l => s.latest (.file l))
    (onward : FileTree.Onward paths w.media.files files)
    (remains : ∀ name l, s.names name = some (.file l) → (files.usages.get? l).isSome = true) :
    ({ w with media := { w.media with files := files } } : World ρ).Backs paths s where
  cwd := onward.cwd.trans h.cwd
  names := h.names
  made := h.made
  memory := h.memory
  files := keeps
  clear path member clear := onward.clear path member (h.clear path member clear)
  opened path member :=
    let ⟨there, reachable⟩ := h.opened path member
    ⟨there, onward.reachable path there reachable⟩
  offers name b known := by
    have offers := h.offers name b known
    cases b with
    | off | memory i => exact offers
    | file l => exact ⟨offers.1, remains name l known⟩

theorem settle (h : w.Backs paths s) : w.settle.Backs paths s := by
  obtain ⟨keeps, onward, usages⟩ := h.files.closeUnneeded w.needs
  refine h.refile keeps onward fun name l known => ?_
  rw [usages l (needs_of_named ((h.names name).trans (congrArg _ known)))]
  exact (h.offers name _ known).2

theorem give (h : w.Backs paths s) (name : String) {b : Backing} (offers : w.Offers paths s b) :
    ({ w with storages := w.storages.insert name b.medium } : World ρ).Backs paths
      (s.give name b) where
  cwd := h.cwd
  names other := by
    by_cases here : other = name
    · subst here
      simp [Stores.give]
    · simp [Stores.give, here, OrderedMap.get?_insert_of_ne here, h.names]
  made := h.made
  memory := h.memory
  files := h.files
  clear := h.clear
  opened := h.opened
  offers other c known := by
    by_cases here : other = name
    · obtain rfl : b = c := by simpa [Stores.give, here] using known
      exact offers
    · exact h.offers other c (by simpa [Stores.give, here] using known)

theorem forget (h : w.Backs paths s) (name : String) :
    ({ w with storages := w.storages.erase name } : World ρ).Backs paths (s.forget name) where
  cwd := h.cwd
  names other := by
    by_cases here : other = name
    · subst here
      simp [Stores.forget]
    · simp [Stores.forget, here, OrderedMap.get?_erase_of_ne here, h.names]
  made := h.made
  memory := h.memory
  files := h.files
  clear := h.clear
  opened := h.opened
  offers other c known := by
    by_cases here : other = name
    · simp [Stores.forget, here] at known
    · exact h.offers other c (by simpa [Stores.forget, here] using known)

theorem newRegion (h : w.Backs paths s) (entries : List (String × ByteArray)) :
    ({ w with media := (w.media.newRegion (.ofList entries)).2 } : World ρ).Backs paths
      { s.fill (.memory s.made) entries with made := s.made + 1 } where
  cwd := h.cwd
  names := h.names
  made := (Media.size_regions_newRegion _).trans (congrArg (· + 1) h.made)
  memory i key := by
    show ((w.media.regions.push (.ofList entries))[i]?).bind (·.get? key) =
      (s.fill (.memory s.made) entries).latest (.memory i) key
    rw [Array.getElem?_push]
    by_cases here : i = s.made
    · subst here
      -- Nothing was written to the table before it was made.
      have empty (key : String) : s.latest (.memory s.made) key = none := by
        rw [← h.memory, Media.lookup, Array.getElem?_eq_none (Nat.le_of_eq h.made)]
        rfl
      rw [if_pos h.made.symm, Stores.latest_fill entries empty]
      rfl
    · rw [if_neg (fun same => here (same.trans h.made)),
        Stores.latest_fill_of_ne fun same => here (Backing.memory.inj same)]
      exact h.memory i key
  files := by
    have same : (fun l => (s.fill (.memory s.made) entries).latest (.file l)) =
        fun l => s.latest (.file l) :=
      funext fun l => funext fun key => Stores.latest_fill_of_ne Backing.noConfusion entries key
    show w.media.files.Keeps paths fun l => (s.fill (.memory s.made) entries).latest (.file l)
    rw [same]
    exact h.files
  clear := h.clear
  opened := h.opened
  offers name b known := by
    have offers := h.offers name b known
    cases b with
    | off => trivial
    | memory i => exact Nat.lt_succ_of_lt offers
    | file l => exact offers

theorem make (h : w.Backs paths s) (name : String) (entries : List (String × ByteArray)) :
    ({ w with
        media := (w.media.newRegion (.ofList entries)).2
        storages := w.storages.insert name (w.media.newRegion (.ofList entries)).1 } :
      World ρ).Backs paths (s.make name entries) := by
  have number : (w.media.newRegion (.ofList entries)).1 = (Backing.memory s.made).medium :=
    congrArg Medium.region h.made
  rw [number]
  exact (h.newRegion entries).give name (b := .memory s.made) (Nat.lt_succ_self s.made)

theorem store (h : w.Backs paths s) {i : Nat} (small : i < s.made) (key : String)
    (bytes : ByteArray) :
    ({ w with media := w.media.store i key bytes } : World ρ).Backs paths
      (s.write (.memory i) key bytes) where
  cwd := h.cwd
  names := h.names
  made := (Media.size_regions_store i).trans h.made
  memory j key' := by
    by_cases here : j = i ∧ key' = key
    · obtain ⟨rfl, rfl⟩ := here
      rw [Stores.latest_write_self]
      exact Media.lookup_store (h.made ▸ small)
    · rw [Decidable.not_and_iff_not_or_not] at here
      rw [Stores.latest_write_of_ne (here.imp_left fun ne same => ne (Backing.memory.inj same)),
        ← h.memory]
      exact Media.lookup_store_of_ne here
  files := by
    have same : (fun l => (s.write (.memory i) key bytes).latest (.file l)) =
        fun l => s.latest (.file l) :=
      funext fun l => funext fun _ => Stores.latest_write_of_ne (.inl Backing.noConfusion)
    rw [same]
    exact h.files
  clear := h.clear
  opened := h.opened
  offers := h.offers

theorem table? (h : w.Backs paths s) {l : Location} (offers : w.Offers paths s (.file l)) :
    ∃ table, w.media.files.table? l = some table ∧
      (∀ key, table.get? key = (s.latest (.file l) key).map .bytes) ∧
      w.media.files.isReadOnly l = false := by
  obtain ⟨⟨path, member, rfl⟩, used⟩ := offers
  have holds := h.files.holds path member
  rw [h.cwd] at holds
  obtain ⟨table, found, content⟩ := holds.table? used
  exact ⟨table, found, content, holds.index⟩

theorem setTable (h : w.Backs paths s) {l : Location} (offers : w.Offers paths s (.file l))
    {table : OrderedMap String Stored}
    (content : ∀ key, table.get? key = (s.latest (.file l) key).map .bytes) (key : String)
    (bytes : ByteArray) :
    ({ w with
        media := { w.media with
          files := w.media.files.setTable l (table.insert key (.bytes bytes)) } } : World ρ).Backs
      paths (s.write (.file l) key bytes) := by
  obtain ⟨⟨path, member, here⟩, used⟩ := offers
  rw [← h.cwd] at here
  subst here
  let stored (j : Location) : String → Option ByteArray :=
    (s.write (.file (resolve w.media.files.cwd path)) key bytes).latest (.file j)
  have holds (key' : String) : (table.insert key (.bytes bytes)).get? key' =
      (stored (resolve w.media.files.cwd path) key').map .bytes := by
    by_cases same : key' = key
    · subst same
      simp [stored]
    · rw [OrderedMap.get?_insert_of_ne same, content]
      simp only [stored, Stores.latest_write_of_ne (.inr same)]
  have elsewhere (j : Location) (other : j ≠ resolve w.media.files.cwd path) :
      stored j = fun key => s.latest (.file j) key :=
    funext fun _ => Stores.latest_write_of_ne (.inl fun same => other (Backing.file.inj same))
  -- The table is that of one location; by whatever path it is reached, all the others keep theirs.
  obtain ⟨keeps, onward⟩ := h.files.setTable member used holds elsewhere
  refine ⟨onward.cwd.trans h.cwd, h.names, h.made, fun i key' => ?_, keeps,
    fun other there clear => onward.clear other there (h.clear other there clear),
    fun other member' => ?_, fun name b known => ?_⟩
  · exact (h.memory i key').trans (Stores.latest_write_of_ne (.inl Backing.noConfusion)).symm
  · obtain ⟨there, reachable⟩ := h.opened other member'
    exact ⟨there, onward.reachable other there reachable⟩
  · have offers := h.offers name b known
    cases b with
    | off | memory i => exact offers
    | file j => exact ⟨offers.1, FileTree.used_setTable _ _ offers.2⟩

/-- Every medium with a name that is not switched off tells what was written last. -/
theorem read (h : w.Backs paths s) {b : Backing} (known : s.names name = some b) (key : String)
    (on : b ≠ .off) : w.media.read b.medium key = .answered (s.latest b key) := by
  have offers := h.offers name b known
  cases b with
  | off => exact absurd rfl on
  | memory i => exact congrArg Response.answered (h.memory i key)
  | file l =>
    obtain ⟨table, found, content, -⟩ := h.table? offers
    simp only [Backing.medium, Media.read, found, content key]
    cases s.latest (.file l) key <;> rfl

/-- Every medium with a name that is not switched off takes what is written. -/
theorem write (h : w.Backs paths s) {b : Backing} (known : s.names name = some b) (key : String)
    (bytes : ByteArray) (on : b ≠ .off) :
    (w.media.write b.medium key bytes).1 = .answered () ∧
      ({ w with media := (w.media.write b.medium key bytes).2 } : World ρ).Backs paths
        (s.write b key bytes) := by
  have offers := h.offers name b known
  cases b with
  | off => exact absurd rfl on
  | memory i => exact ⟨rfl, h.store offers key bytes⟩
  | file l =>
    obtain ⟨table, found, content, writable⟩ := h.table? offers
    simp only [Backing.medium, Media.write, found, writable, Bool.false_eq_true, if_false]
    exact ⟨trivial, h.setTable offers content key bytes⟩

end World.Backs

/-! ## Steps -/

variable {step : MediumStep}

/-- A file is opened, or refused if it never was opened by this path, which was not clear. -/
theorem openDatabase_moves (h : w.Backs paths s) (name : String) {path : String}
    (member : path ∈ paths) (ordinary : Media.isPrivateName path = false) :
    (MediumStep.perform name (.openAs (.database path)) : Act (World ρ) _).Yields w fun r w' =>
      ∃ s', s.Moves name (.openAs (.database path)) r s' ∧ w'.Backs paths s' := by
  have opens := Media.openDatabase_opens h.files member ordinary
  have kept : ({ w with media := (w.media.openDatabase path).2 } : World ρ).Backs paths s := by
    rw [opens.rest]
    exact h.refile opens.keeps opens.onward fun name l known =>
      opens.remains l (h.offers name _ known).2
  refine .bind (.look ?_)
  generalize w.media.openDatabase path = result at opens kept ⊢
  -- A refusal contradicts both an earlier opening and a clear path; otherwise the file is entered.
  rcases result with ⟨e | medium, media⟩
  · refine .bind (.change (.pure (.pure
      ⟨s, .refused (fun there => ?_) (fun clear => ?_) e, kept⟩)))
    · obtain ⟨medium, opened⟩ := opens.succeeds (.inl (h.opened path there).2)
      cases opened
    · obtain ⟨medium, opened⟩ := opens.succeeds (.inr (h.clear path member clear))
      cases opened
  · obtain ⟨rfl, used, reachable⟩ := opens.opened medium rfl
    rw [h.cwd] at used ⊢
    have given := kept.give name (b := .file (resolve s.cwd path)) ⟨⟨path, member, rfl⟩, used⟩
    have entered : ({ w with
        media := media
        storages := w.storages.insert name (.database (resolve s.cwd path)) } : World ρ).Backs
        paths (s.enter name path) :=
      { given with
        opened := fun other there => by
          rcases List.mem_cons.1 there with rfl | before
          · exact ⟨member, reachable⟩
          · exact given.opened other before }
    exact .bind (.change (.pure (.bind (.change (.pure ⟨_, .file path, entered.settle⟩)))))

theorem withMedium_yields (h : w.Backs paths s) {f : Medium → Act (World ρ) (Reply ρ)}
    {post : Reply ρ → World ρ → Prop} (missing : s.names name = none → post .missing w)
    (known : ∀ b, s.names name = some b → (f b.medium).Yields w post) :
    (withMedium name f).Yields w post := by
  refine .look ?_
  rw [h.names]
  cases named : s.names name with
  | none => exact .pure (missing named)
  | some b => exact known b named

/-- One step on a medium: it comes to its end, and its answer is that of a map. -/
theorem perform_moves (h : w.Backs paths s) (name : String) (plain : step.IsPlain)
    (known : ∀ path, step.path? = some path → path ∈ paths) :
    (step.perform name : Act (World ρ) _).Yields w fun r w' =>
      ∃ s', s.Moves name step r s' ∧ w'.Backs paths s' := by
  cases step with
  | openAs opening =>
    cases opening with
    | memory entries =>
      exact .bind (.look (.bind (.change (.pure (.bind (.change (.pure
        ⟨_, .memory entries, (h.make name entries).settle⟩)))))))
    | share other =>
      refine .bind (.look ?_)
      rw [h.names]
      cases named : s.names other with
      | none => exact .pure (.pure ⟨s, .shareMissing named, h⟩)
      | some b =>
        exact .pure (.bind (.change (.pure
          ⟨_, .share named, (h.give name (h.offers other b named)).settle⟩)))
    | disabled =>
      exact .bind (.pure (.bind (.change (.pure
        ⟨_, .disabled, (h.give name (b := .off) trivial).settle⟩))))
    | privateDatabase =>
      exact .bind (.look (.bind (.change (.pure (.bind (.change (.pure
        ⟨_, .privateDatabase, (h.make name []).settle⟩)))))))
    | database path => exact openDatabase_moves h name (known path rfl) plain
    | switched entries switches => exact plain.elim
  | close => exact .bind (.change (.pure ⟨_, .close, (h.forget name).settle⟩))
  | turn reads writes => exact plain.elim
  | read key =>
    refine withMedium_yields h (fun unknown => ⟨s, .readMissing unknown key, h⟩) fun b named => ?_
    -- A medium that is switched off answers, too, but nothing of it is a map.
    by_cases on : b = .off
    · subst on
      exact .bind (.look (.pure (.pure ⟨s, .readOff named key, h⟩)))
    · refine .bind (.look ?_)
      rw [h.read named key on]
      exact .pure (.pure ⟨s, .read named on key, h⟩)
  | write key bytes =>
    refine withMedium_yields h (fun unknown => ⟨s, .writeMissing unknown key bytes, h⟩)
      fun b named => ?_
    by_cases on : b = .off
    · subst on
      exact .bind (.look (.bind (.change (.pure (.pure ⟨s, .writeOff named key bytes, h⟩)))))
    · obtain ⟨answered, wrote⟩ := h.write named key bytes on
      refine .bind (.look ?_)
      generalize w.media.write b.medium key bytes = result at answered wrote ⊢
      obtain ⟨answer, media⟩ := result
      obtain rfl : answer = .answered () := answered
      exact .bind (.change (.pure (.pure ⟨_, .write named on key bytes, wrote⟩)))

/-! ## Runs -/

section

variable [Inhabited ρ] [Settings.Record ρ] [Text.Describe ρ]

theorem runStep_moves (h : w.Backs paths s) (name : String) (plain : step.IsPlain)
    (known : ∀ path, step.path? = some path → path ∈ paths) (budget : Nat) :
    ∃ reply s', ((language ρ).runStep (budget + 1) (.medium name step) w).1.ending = .ok reply ∧
      s.Moves name step reply s' ∧
      ((language ρ).runStep (budget + 1) (.medium name step) w).2.Backs paths s' := by
  obtain ⟨reply, w', ran, s', moves, backs⟩ :=
    perform_moves (h.record (.began (.medium name step))) name plain known
  have exec : ((language ρ).exec (budget + 1) (.medium name step)).perform w = (.ok reply, w') :=
    ran
  rw [Language.runStep_eq, exec]
  exact ⟨reply, s', rfl, moves, backs⟩

theorem run_follows (plan : Plan) (h : w.Backs paths s) (plain : ∀ step ∈ plan, step.2.IsPlain)
    (known : ∀ step ∈ plan, ∀ path, step.2.path? = some path → path ∈ paths) (budget : Nat) :
    s.Follows plan (((language ρ).run (budget + 1) plan.steps w).1.map (·.ending)) := by
  induction plan generalizing w s with
  | nil => exact .nil s
  | cons step plan ih =>
    obtain ⟨name, step⟩ := step
    obtain ⟨reply, s', ending, moves, backs⟩ := runStep_moves h name (plain _ List.mem_cons_self)
      (known _ List.mem_cons_self) budget
    have further := ih backs (fun step there => plain step (List.mem_cons_of_mem _ there))
      fun step there => known step (List.mem_cons_of_mem _ there)
    simp only [Plan.steps, List.map_cons, Language.run, ending]
    exact .cons moves further

/-- Whatever is opened, shared, closed, read and written, a read gives the bytes of the latest
    successful write to the same key of the same backing store, or nothing if there was none; a
    medium that is switched off holds nothing and takes nothing. -/
theorem media_are_maps (files : FileTree) (plan : Plan) (plain : ∀ step ∈ plan, step.2.IsPlain)
    (ordinary : files.Ordinary plan.paths) :
    (Stores.start files plan.paths).Follows plan
      ((run files (plan.steps : List (Step ρ))).1.map (·.ending)) := by
  rw [run, Plan.stepsWeight_steps]
  cases plan with
  | nil => exact .nil _
  | cons step plan =>
    exact run_follows _ (backs_start ordinary) plain
      (fun step there path opens => List.mem_filterMap.2 ⟨step, there, opens⟩) _

end

/-- A file that is opened by two paths, closed and opened again, two users of a table in memory, a
    private database, and a medium that is switched off. -/
def mixed : Plan :=
  [("c", .openAs (.database "k/d")), ("d", .openAs (.database "k//d")), ("c", .write "k" .empty),
    ("d", .read "k"), ("d", .read "j"), ("c", .close), ("d", .close),
    ("c", .openAs (.database "k//d")), ("c", .read "k"), ("a", .openAs (.memory [("k", ⟨#[1]⟩)])),
    ("b", .openAs (.share "a")), ("b", .write "k" ⟨#[2]⟩), ("a", .read "k"),
    ("p", .openAs .privateDatabase), ("p", .read "k"), ("o", .openAs .disabled),
    ("o", .write "k" ⟨#[3]⟩), ("o", .read "k")]

theorem mixed_paths (path : String) (member : path ∈ mixed.paths) :
    resolve ["w"] path = ["w", "k", "d"] ∧
      (∀ j ∈ way ["w"] path, j ∈ [["w"], ["w", "k"], ["w", "k", "d"]]) ∧
      origin ["w"] path = ["w"] ∧ directoryParts path = ["k"] ∧
      isAddressable ["w"] path = true := by
  have single : Location.written "k/d" = ["k", "d"] := by cbv
  have double : Location.written "k//d" = ["k", "", "d"] := by cbv
  have relative : ∀ path ∈ ["k/d", "k//d"], origin ["w"] path = ["w"] ∧ hasNul path = false := by
    decide +kernel
  obtain rfl | rfl : path = "k/d" ∨ path = "k//d" := by
    simpa [mixed, Plan.paths, MediumStep.path?] using member
  · obtain ⟨start, legal⟩ := relative "k/d" (by decide)
    simp only [resolve, way, directoryParts, isAddressable, parts, single, start, legal]
    decide
  · obtain ⟨start, legal⟩ := relative "k//d" (by decide)
    simp only [resolve, way, directoryParts, isAddressable, parts, double, start, legal]
    decide

theorem mixed_ordinary : (FileTree.empty ["w"]).Ordinary mixed.paths := by
  have nothing : (FileTree.empty ["w"]).node? ["w", "k", "d"] = none := rfl
  have cwd : (FileTree.empty ["w"]).cwd = ["w"] := rfl
  refine ⟨rfl, ?_, fun path member e he => ?_, fun path member => ?_,
    fun path member key text => ?_⟩
  · intro path member e he other member' there
    rw [cwd, (mixed_paths path member).1] at there
    have off : ∀ e ∈ endings,
        beside ["w", "k", "d"] e ∉ [["w"], ["w", "k"], ["w", "k", "d"]] := by decide
    exact off e he ((mixed_paths other member').2.1 _ there)
  all_goals rw [cwd, (mixed_paths path member).1]
  · have none : ∀ e ∈ endings,
        ((FileTree.empty ["w"]).node? (beside ["w", "k", "d"] e)).isNone = true := by decide
    exact Option.isNone_iff_eq_none.1 (none e he)
  · rw [nothing]
    simp
  · rw [FileTree.held_of_not nothing (by simp)]
    simp

theorem mixed_clear (path : String) (member : path ∈ mixed.paths) :
    (FileTree.empty ["w"]).Clear mixed.paths path := by
  have cwd : (FileTree.empty ["w"]).cwd = ["w"] := rfl
  have nothing : (FileTree.empty ["w"]).node? ["w", "k", "d"] = none := rfl
  obtain ⟨leads, -, start, parts, addressable⟩ := mixed_paths path member
  have directory : directory ["w"] path = ["w", "k"] := by
    rw [directory, start, parts]
    decide
  exact
    { legal := by rw [parts]; decide
      short := .inr (by rw [parts]; decide)
      start := by rw [cwd, start]; rfl
      free := by rw [cwd, start, parts]; exact ⟨by decide, .inr rfl, trivial⟩
      inside := by rw [cwd, leads, directory]; rfl
      addressable := addressable
      room := by rw [cwd, leads]; decide
      takes := by rw [cwd, leads]; exact .inr (.inl nothing)
      aside := fun other member' => by
        obtain ⟨leads', -, start', parts', -⟩ := mixed_paths other member'
        rw [cwd, leads, leads', start, start', parts, parts']
        decide }

theorem media_are_maps_mixed :
    (∀ path ∈ mixed.paths, (Stores.start (.empty ["w"]) mixed.paths).clear path) ∧
      (Stores.start (.empty ["w"]) mixed.paths).Follows mixed
        ((run (.empty ["w"]) (mixed.steps : List (Step UserSettings))).1.map (·.ending)) := by
  have plain : ∀ step ∈ mixed, step.2.IsPlain := by
    simp [mixed, MediumStep.IsPlain, Media.isPrivateName]
  exact ⟨mixed_clear, media_are_maps _ _ plain mixed_ordinary⟩

end LiveState.Session
