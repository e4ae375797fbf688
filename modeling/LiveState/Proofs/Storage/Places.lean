import LiveState.Proofs.Storage.Reopening

/-! # Databases with places of their own

Where the files that a database keeps beside its own are nobody else's, all that is done to it
leaves the other databases alone: what they hold, who uses them, and that they can be opened.
-/

namespace LiveState

namespace Location

/-! ## The files beside a database -/

/-- How the names of the files end that a database keeps beside its own. -/
def endings : List String := ["-journal", "-wal", "-shm"]

theorem eq_of_beside {l l' : Location} {e e' : String} (he : e ∈ endings) (he' : e' ∈ endings)
    (inside : l ≠ []) (inside' : l' ≠ []) (same : l.beside e = l'.beside e') : l = l' := by
  rw [beside, beside, List.getLast?_eq_some_getLast inside, List.getLast?_eq_some_getLast inside']
    at same
  obtain ⟨directory, names⟩ := List.append_inj' same rfl
  have names : l.getLast inside ++ e = l'.getLast inside' ++ e' := by simpa using names
  -- The last three characters tell the endings apart.
  have last (name ending : String) (known : ending ∈ endings) :
      (name ++ ending).toList.reverse.take 3 = ending.toList.reverse.take 3 := by
    have long : 3 ≤ ending.toList.reverse.length := by
      revert ending
      decide
    rw [String.toList_append, List.reverse_append, List.take_append_of_le_length long]
  have distinct : ∀ e ∈ endings, ∀ e' ∈ endings,
      e.toList.reverse.take 3 = e'.toList.reverse.take 3 → e = e' := by decide
  have tails := congrArg (fun name : String => name.toList.reverse.take 3) names
  obtain rfl := distinct e he e' he' (by rwa [last _ e he, last _ e' he'] at tails)
  rw [← List.dropLast_concat_getLast inside, ← List.dropLast_concat_getLast inside', directory,
    (String.append_left_inj e).1 names]

theorem beside_injective {l : Location} (inside : l ≠ []) {e e' : String}
    (same : l.beside e = l.beside e') : e = e' := by
  rw [beside, beside, List.getLast?_eq_some_getLast inside] at same
  have names : l.getLast inside ++ e = l.getLast inside ++ e' := by simpa using same
  exact (String.append_right_inj _).1 names

theorem beside_ne_beside {l : Location} (inside : l ≠ []) {e e' : String} (h : e ≠ e') :
    l.beside e ≠ l.beside e' := fun same => h (beside_injective inside same)

theorem journal_ne_log {l : Location} (inside : l ≠ []) : l.journal ≠ l.log :=
  beside_ne_beside inside (by decide)

theorem journal_ne_index {l : Location} (inside : l ≠ []) : l.journal ≠ l.index :=
  beside_ne_beside inside (by decide)

theorem log_ne_index {l : Location} (inside : l ≠ []) : l.log ≠ l.index :=
  beside_ne_beside inside (by decide)

theorem beside_ne_nil {l : Location} (inside : l ≠ []) (ending : String) : l.beside ending ≠ [] :=
  List.ne_nil_of_length_pos (by
    rw [length_beside inside]
    exact List.length_pos_iff.2 inside)

/-! ## The way of a path -/

/-- The locations on the way of a path, from where it begins to where it leads. -/
def way (cwd : Location) (path : String) : List Location :=
  origin cwd path :: passed (origin cwd path) (written path)

theorem mem_passed_append {l j : Location} {ps : List String} (qs : List String)
    (h : j ∈ passed l ps) : j ∈ passed l (ps ++ qs) := by
  induction ps generalizing l with
  | nil => cases h
  | cons p ps ih =>
    rcases List.mem_cons.1 h with rfl | further
    · exact List.mem_cons_self
    · exact List.mem_cons_of_mem _ (ih further)

theorem follow_mem (l : Location) (ps : List String) : l.follow ps ∈ l :: passed l ps := by
  induction ps generalizing l with
  | nil => exact List.mem_cons_self
  | cons p ps ih => exact List.mem_cons_of_mem _ (ih (l.step p))

/-- The parts of the directory of a path are its first ones. -/
theorem exists_written (path : String) : ∃ rest, directoryParts path ++ rest = written path := by
  have trimmed (ps : List String) : trimEnd ps <+: ps := by
    rw [trimEnd, ← List.reverse_suffix, List.reverse_reverse]
    exact List.dropWhile_suffix _
  have dropped := List.dropLast_prefix (trimEnd (written path))
  exact (trimmed _).trans (dropped.trans (trimmed _))

/-- The way to the directory of a path is a part of its way. -/
theorem mem_way_of_passed {cwd j : Location} {path : String}
    (h : j ∈ passed (origin cwd path) (directoryParts path)) : j ∈ way cwd path := by
  obtain ⟨rest, parts⟩ := exists_written path
  rw [way, ← parts]
  exact List.mem_cons_of_mem _ (mem_passed_append rest h)

theorem directory_mem_way (cwd : Location) (path : String) :
    directory cwd path ∈ way cwd path := by
  rcases List.mem_cons.1 (follow_mem (origin cwd path) (directoryParts path)) with here | passed
  · rw [directory, here]
    exact List.mem_cons_self
  · exact mem_way_of_passed passed

theorem resolve_mem_way (cwd : Location) (path : String) : resolve cwd path ∈ way cwd path := by
  rw [resolve, parts, follow_filter]
  exact follow_mem ..

/-- What databases at the ends of these paths keep beside their files is not on the way of any of
    them. -/
def Apart (cwd : Location) (paths : List String) : Prop :=
  ∀ path ∈ paths, ∀ ending ∈ endings, ∀ other ∈ paths,
    (resolve cwd path).beside ending ∉ way cwd other

end Location

namespace FileTree

open Location

variable {t t' t'' : FileTree} {l j : Location} {path : String}
  {content : String → Option ByteArray}

/-! ## What is done in one place -/

def HasDatabase (t : FileTree) (l : Location) : Prop := ∃ table, t.node? l = some (.database table)

/-- Whether there is a database at a location, or nothing that could not be replaced by one. -/
def Takes (t : FileTree) (l : Location) : Prop :=
  t.HasDatabase l ∨ t.node? l = none ∨
    ∃ content, t.node? l = some (.file content) ∧ content.size ≤ 1

theorem Takes.congr (h : t.Takes l) (same : t'.node? l = t.node? l) : t'.Takes l := by
  simpa only [Takes, HasDatabase, same] using h

theorem not_owned (ne : j ≠ l) (apart : ∀ e ∈ endings, l.beside e ≠ j) : ¬ Owned l j := by
  rintro (same | same | same | same)
  · exact ne same
  all_goals exact apart _ (by decide) same.symm

/-- From `t` to `t'` nothing has changed but the database at `l` with its files and its use, and
    nothing that stood there has been taken away. -/
structure Confined (l : Location) (t t' : FileTree) : Prop extends Spares l t t' where
  usages : ∀ j, j ≠ l → t'.usages.get? j = t.usages.get? j
  stays : (t.node? l).isSome = true → (t'.node? l).isSome = true
  database : t.HasDatabase l → t'.HasDatabase l
  takes : t.Takes l → t'.Takes l

namespace Confined

theorem refl (l : Location) (t : FileTree) : Confined l t t where
  toSpares := .refl l t
  usages _ _ := rfl
  stays := id
  database := id
  takes := id

theorem trans (h : Confined l t t') (k : Confined l t' t'') : Confined l t t'' where
  toSpares := h.toSpares.trans k.toSpares
  usages j other := (k.usages j other).trans (h.usages j other)
  stays := k.stays ∘ h.stays
  database := k.database ∘ h.database
  takes := k.takes ∘ h.takes

/-- Nothing has changed but what is beside the database, and its use. -/
theorem of_node (spares : Spares l t t') (usages : ∀ j, j ≠ l → t'.usages.get? j = t.usages.get? j)
    (node : t'.node? l = t.node? l) : Confined l t t' where
  toSpares := spares
  usages := usages
  stays there := node ▸ there
  database := fun ⟨table, there⟩ => ⟨table, node.trans there⟩
  takes before := before.congr node

/-- Something was put in the place of the database. -/
theorem put (spares : Spares l t t') (same : t'.usages = t.usages) (inside : l ≠ []) {n : Node}
    (file : t.isDirectory l = false) (kind : n = .file .empty ∨ ∃ table, n = .database table)
    (database : t.HasDatabase l → ∃ table, n = .database table) : Confined l t (t'.put l n) where
  toSpares := spares.put (.inl rfl) file fun same => by
    rcases kind with rfl | ⟨table, rfl⟩ <;> cases same
  usages j _ := congrArg (·.get? j) same
  stays _ := by rw [node?_put_self inside]; rfl
  database there := by
    obtain ⟨table, rfl⟩ := database there
    exact ⟨table, node?_put_self inside t' _⟩
  takes _ := by
    rcases kind with rfl | ⟨table, rfl⟩
    · exact .inr (.inr ⟨.empty, node?_put_self inside t' _, by decide⟩)
    · exact .inl ⟨table, node?_put_self inside t' _⟩

/-- Whatever stood somewhere that is not beside the database still stands there. -/
theorem isSome (h : Confined l t t') (apart : ∀ e ∈ endings, l.beside e ≠ j)
    (there : (t.node? j).isSome = true) : (t'.node? j).isSome = true := by
  by_cases here : j = l
  · subst here
    exact h.stays there
  · rw [h.nodes j (not_owned here apart)]
    exact there

end Confined

/-! ## What is known of one place -/

/-- What is stored under a key in the database at a location, whoever uses it. -/
def held (t : FileTree) (l : Location) (key : String) : Option Stored :=
  match t.node? l with
  | some (.database table) => table.get? key
  | _ => none

theorem held_of_not {n : Option Node} (node : t.node? l = n)
    (h : ∀ table, n ≠ some (.database table)) (key : String) : t.held l key = none := by
  unfold held
  split
  · next table there => exact absurd (node.symm.trans there) (h table)
  · rfl

theorem held_congr (same : t'.node? l = t.node? l) (key : String) :
    t'.held l key = t.held l key := by
  unfold held
  rw [same]

/-- If there is a database at `l`, it holds these bytes under each key; nothing is in the way of it,
    and nobody who uses it is cut off. -/
structure Holds (t : FileTree) (l : Location) (content : String → Option ByteArray) : Prop where
  inside : l ≠ []
  journal : t.node? l.journal = none
  log : t.isDirectory l.log = false
  index : t.isDirectory l.index = false
  own : t.node? l ≠ some .foreignDatabase
  content : ∀ key, t.held l key = (content key).map .bytes
  used : ∀ u, t.usages.get? l = some u →
    u.cover = none ∧ t.hasLog l = true ∧ t.HasDatabase l

/-- How an attempt to open the database at `l` may end: it is in use then, or at least nothing is
    lost. -/
structure Opens (l : Location) (content : String → Option ByteArray) (t : FileTree)
    (result : FileTree × Option Location) : Prop where
  confined : Confined l t result.1
  holds : result.1.Holds l content
  opened : ∀ j, result.2 = some j →
    j = l ∧ (result.1.usages.get? l).isSome = true ∧ result.1.HasDatabase l
  remains : (t.usages.get? l).isSome = true → (result.1.usages.get? l).isSome = true

theorem isDirectory_of_none (h : t.node? j = none) : t.isDirectory j = false := by
  simp [isDirectory, h]

theorem begins_of_none (h : t.node? j = none) (p : UInt8 → Bool) : t.begins j p = false := by
  simp [begins, h]

theorem discard_of_none (h : t.node? j = none) (p : UInt8 → Bool) : t.discard j p = t := by
  simp [discard, begins_of_none h]

/-- In all that is known of a place nothing else matters than what is there. -/
theorem Holds.congr {t' : FileTree} (h : t.Holds l content) (node : t'.node? l = t.node? l)
    (journal : t'.node? l.journal = t.node? l.journal) (log : t'.node? l.log = t.node? l.log)
    (index : t'.node? l.index = t.node? l.index) (usage : t'.usages.get? l = t.usages.get? l) :
    t'.Holds l content where
  inside := h.inside
  journal := journal.trans h.journal
  log := by simpa only [isDirectory, log] using h.log
  index := by simpa only [isDirectory, index] using h.index
  own := node ▸ h.own
  content key := (held_congr node key).trans (h.content key)
  used u found := by
    obtain ⟨uncovered, logged, table, there⟩ := h.used u (usage ▸ found)
    exact ⟨uncovered, by simpa only [hasLog, begins, log] using logged, table, node.trans there⟩

theorem hasLog_enlist (inside : l ≠ []) (isNew : Bool) : (t.enlist l isNew).hasLog l = true := by
  have logged : (t.put l.log (.file pages)).node? l.log = some (.file pages) :=
    node?_put_self (beside_ne_nil inside _) t _
  have node : (t.enlist l isNew).node? l.log = some (.file pages) := by
    show (if _ then _ else _ : FileTree).node? l.log = _
    split
    · exact logged
    · exact (node?_put_of_ne (log_ne_index inside) _ _).trans logged
  simp [hasLog, begins, node, pages]

namespace Holds

theorem isDirectory_journal (h : t.Holds l content) : t.isDirectory l.journal = false :=
  isDirectory_of_none h.journal

theorem table? (h : t.Holds l content) (used : (t.usages.get? l).isSome = true) :
    ∃ table, t.table? l = some table ∧ ∀ key, table.get? key = (content key).map .bytes := by
  obtain ⟨u, usage⟩ := Option.isSome_iff_exists.1 used
  obtain ⟨uncovered, -, table, node⟩ := h.used u usage
  refine ⟨table, ?_, fun key => ?_⟩
  · simp [FileTree.table?, node, usage, Usage.isLegible, uncovered]
  · rw [← h.content key, held, node]

/-- As long as only the files beside the database are changed, it holds what it held. -/
theorem of_spares (h : t.Holds l content) (spares : Spares l t t')
    (node : t'.node? l = t.node? l) (journal : t'.node? l.journal = none)
    (used : ∀ u, t'.usages.get? l = some u →
      u.cover = none ∧ t'.hasLog l = true ∧ t'.HasDatabase l) : t'.Holds l content where
  inside := h.inside
  journal := journal
  log := (spares.directories _).trans h.log
  index := (spares.directories _).trans h.index
  own := node ▸ h.own
  content key := (held_congr node key).trans (h.content key)
  used := used

/-! ## Opening -/

theorem enlist (h : t.Holds l content) (database : t.HasDatabase l) (isNew : Bool) :
    Confined l t (t.enlist l isNew) ∧ (t.enlist l isNew).Holds l content ∧
      ((t.enlist l isNew).usages.get? l).isSome = true := by
  have spares := spares_enlist h.log isNew
  have node := node?_enlist h.inside t isNew
  have journal : (t.enlist l isNew).node? l.journal = t.node? l.journal :=
    node?_enlist_of_ne (journal_ne_log h.inside) (journal_ne_index h.inside) t isNew
  have usage : (t.enlist l isNew).usages.get? l = some ⟨isNew, false, none⟩ := by
    rw [usages_enlist, OrderedMap.get?_insert_self]
  have confined : Confined l t (t.enlist l isNew) :=
    .of_node spares (fun j other => by rw [usages_enlist, OrderedMap.get?_insert_of_ne other]) node
  refine ⟨confined, h.of_spares spares node (journal.trans h.journal) fun u found => ?_,
    by simp [usage]⟩
  obtain rfl : ⟨isNew, false, none⟩ = u := Option.some.inj (usage.symm.trans found)
  exact ⟨rfl, hasLog_enlist h.inside isNew, confined.database database⟩

theorem refused (h : t.Holds l content) : Opens l content t (t, none) :=
  ⟨.refl l t, h, (fun _ opened => nomatch opened), id⟩

theorem connect (h : t.Holds l content) (database : t.HasDatabase l) :
    (t.connect l).2 = some l ∧ Opens l content t (t.connect l) := by
  simp only [FileTree.connect]
  split
  · -- Others use it already, and nothing was written over its file.
    next u usage =>
    obtain ⟨uncovered, logged, -⟩ := h.used u usage
    have joined : t.join l u = (t, some l) := by
      simp [join, Usage.isEmptied, Usage.isOpen, uncovered, logged, hasJournal,
        begins_of_none h.journal, h.isDirectory_journal]
    rw [joined]
    refine ⟨rfl, .refl l t, h, fun j opened => ?_, id⟩
    cases opened
    exact ⟨rfl, by simp [usage], database⟩
  · obtain ⟨confined, holds, used⟩ := h.enlist database false
    rw [h.isDirectory_journal, dropJournal, discard_of_none h.journal, h.log]
    refine ⟨rfl, confined, holds, fun j opened => ?_, fun _ => used⟩
    cases opened
    exact ⟨rfl, used, confined.database database⟩

/-- Where there is a vacancy, nothing is stored and nobody uses anything. -/
theorem of_isVacant (h : t.Holds l content) (vacant : t.isVacant l = true) :
    (∀ key, content key = none) ∧ t.usages.get? l = none ∧ ¬ t.HasDatabase l := by
  have nothing : ∀ table, t.node? l ≠ some (.database table) := fun table there => by
    simp [isVacant, there] at vacant
  have absent : ¬ t.HasDatabase l := not_exists.2 nothing
  refine ⟨fun key => ?_, ?_, absent⟩
  · have none := h.content key
    rw [held_of_not rfl nothing] at none
    exact Option.map_eq_none_iff.1 none.symm
  · exact Option.eq_none_iff_forall_ne_some.2 fun u usage => absent (h.used u usage).2.2

/-- The way is cleared for a database, unless there is no room for the names of its files. -/
theorem clear (h : t.Holds l content) :
    t.clear l = (t.touch l, false) ∧ l.hasRoom = false ∨
    ∃ t', t.clear l = (t', true) ∧ t'.node? l.journal = none ∧ t'.node? l = t.node? l := by
  unfold FileTree.clear
  split
  · next full => exact .inl ⟨rfl, by simpa using full⟩
  · have tidied : Spares l t (t.dropLog l) := (Spares.refl l t).discard (.inr (.inr (.inl rfl))) _
    have journal : (t.dropLog l).isDirectory l.journal = false :=
      (tidied.directories _).trans h.isDirectory_journal
    have log : (t.dropLog l).isDirectory l.log = false := (tidied.directories _).trans h.log
    simp only [discard_of_none h.journal, journal, log, Bool.or_false, Bool.false_eq_true, if_false]
    refine .inr ⟨_, rfl, node?_remove_self (beside_ne_nil h.inside _) _, ?_⟩
    rw [node?_remove_of_ne (ne_journal h.inside), dropLog, node?_discard_of_ne (ne_log h.inside)]

theorem put {content' : String → Option ByteArray} (h : t.Holds l content) {n : Node}
    (own : n ≠ .foreignDatabase)
    (holds : ∀ key, (t.put l n).held l key = (content' key).map .bytes)
    (used : (t.usages.get? l).isSome = true → ∃ table, n = .database table) :
    (t.put l n).Holds l content' where
  inside := h.inside
  journal := (node?_put_of_ne (ne_journal h.inside).symm t n).trans h.journal
  log := by
    rw [isDirectory, node?_put_of_ne (ne_log h.inside).symm]
    exact h.log
  index := by
    rw [isDirectory, node?_put_of_ne (ne_index h.inside).symm]
    exact h.index
  own := by
    rw [node?_put_self h.inside]
    exact fun same => own (Option.some.inj same)
  content := holds
  used u usage := by
    obtain ⟨uncovered, logged, -⟩ := h.used u usage
    obtain ⟨table, rfl⟩ := used (by rw [show t.usages.get? l = some u from usage]; rfl)
    refine ⟨uncovered, ?_, table, node?_put_self h.inside t _⟩
    rw [hasLog, begins, node?_put_of_ne (ne_log h.inside).symm]
    exact logged

/-- Where there is a vacancy, an empty database is made, unless there is no room for the names of
    its files. -/
theorem create (h : t.Holds l content) (vacant : t.isVacant l = true) :
    (l.hasRoom = true → (t.create l).2 = some l) ∧ Opens l content t (t.create l) := by
  obtain ⟨nothing, unused, absent⟩ := h.of_isVacant vacant
  obtain ⟨-, file⟩ := FileTree.of_isVacant vacant
  rcases h.clear with ⟨full, narrow⟩ | ⟨t', cleared, journal, node⟩
  · -- What cannot be made leaves an empty file behind.
    have touched : Confined l t (t.touch l) ∧ (t.touch l).Holds l content := by
      unfold touch
      split
      · refine ⟨.put (.refl l t) rfl h.inside file (.inl rfl) fun there => absurd there absent,
          h.put (by simp) (fun key => ?_) fun used => by simp [unused] at used⟩
        rw [held_of_not (node?_put_self h.inside t _) (by simp), nothing]
        rfl
      · exact ⟨.refl l t, h⟩
    have created : t.create l = (t.touch l, none) := by simp [FileTree.create, full]
    rw [created]
    exact ⟨fun room => absurd (narrow.symm.trans room) Bool.false_ne_true, touched.1, touched.2,
      by simp, fun used => by simp [unused] at used⟩
  · obtain ⟨spares, -, -, usages⟩ := spares_clear cleared
    have tidied : Confined l t t' := .of_node spares (fun j _ => by rw [usages]) node
    have free : t'.Holds l content :=
      h.of_spares spares node journal fun u usage => by simp [usages, unused] at usage
    -- An empty database holds nothing, as nothing was held before.
    have made : Confined l t' (t'.put l (.database .empty)) :=
      .put (.refl l t') rfl h.inside ((spares.directories _).trans file) (.inr ⟨_, rfl⟩)
        fun _ => ⟨_, rfl⟩
    have holds : (t'.put l (.database .empty)).Holds l content := by
      refine free.put (by simp) (fun key => ?_) fun _ => ⟨_, rfl⟩
      rw [held, node?_put_self h.inside, nothing]
      rfl
    have database : (t'.put l (.database .empty)).HasDatabase l := ⟨_, node?_put_self h.inside t' _⟩
    obtain ⟨begun, inUse, used⟩ := holds.enlist database true
    have writable : t'.isReadOnly l = false := free.index
    have created : t.create l = ((t'.put l (.database .empty)).enlist l true, some l) := by
      simp [FileTree.create, cleared, writable]
    rw [created]
    refine ⟨fun _ => rfl, tidied.trans (made.trans begun), inUse, fun j opened => ?_,
      fun _ => used⟩
    cases opened
    exact ⟨rfl, used, begun.database database⟩

/-- A file that is no database stays where it is. -/
theorem sweep (h : t.Holds l content) (absent : ¬ t.HasDatabase l) :
    Opens l content t (t.sweep l, none) := by
  have unused (u : Usage) : t.usages.get? l ≠ some u := fun usage => absent (h.used u usage).2.2
  simp only [FileTree.sweep, h.isDirectory_journal, dropJournal, discard_of_none h.journal,
    Bool.false_eq_true, if_false]
  split
  · have spares : Spares l t ((t.remove l.log).remove l.index) :=
      ((Spares.refl l t).remove (.inr (.inr (.inl rfl))) h.log).remove (.inr (.inr (.inr rfl)))
        h.index
    have node : ((t.remove l.log).remove l.index).node? l = t.node? l := by
      rw [node?_remove_of_ne (ne_index h.inside), node?_remove_of_ne (ne_log h.inside)]
    have journal : ((t.remove l.log).remove l.index).node? l.journal = none := by
      rw [node?_remove_of_ne (journal_ne_index h.inside),
        node?_remove_of_ne (journal_ne_log h.inside), h.journal]
    exact ⟨.of_node spares (fun _ _ => rfl) node,
      h.of_spares spares node journal fun u usage => absurd usage (unused u),
      by simp, id⟩
  · exact h.refused

/-- Opening a database neither loses what it holds nor cuts off those who use it. -/
theorem openDatabase (h : t.Holds l content) (here : resolve t.cwd path = l) :
    Opens l content t (t.openDatabase path) := by
  simp only [FileTree.openDatabase, here]
  split
  · exact h.refused
  · split
    · next vacant => exact (h.create vacant).2
    · split
      · next table node => exact (h.connect ⟨table, node⟩).2
      · next node => exact absurd node h.own
      · next node => exact h.sweep (not_exists.2 fun _ there => by cases node.symm.trans there)
      · exact h.refused
      · exact h.refused

/-- Where there is a database, it can be opened by every path that may be taken. -/
theorem openDatabase_of_hasDatabase (h : t.Holds l content) (here : resolve t.cwd path = l)
    (addressable : isAddressable t.cwd path = true) (database : t.HasDatabase l) :
    (t.openDatabase path).2 = some l := by
  obtain ⟨table, node⟩ := database
  have occupied : t.isVacant l = false := by simp [isVacant, node]
  simp only [FileTree.openDatabase, here, addressable, occupied, node, Bool.not_true,
    Bool.false_eq_true, if_false]
  exact (h.connect ⟨table, node⟩).1

/-- Where a database may be made, it can be opened. -/
theorem openDatabase_of_takes (h : t.Holds l content) (here : resolve t.cwd path = l)
    (addressable : isAddressable t.cwd path = true) (room : l.hasRoom = true)
    (directory : t.isDirectory l.dropLast = true) (takes : t.Takes l) :
    (t.openDatabase path).2 = some l := by
  have made (vacant : t.isVacant l = true) : (t.openDatabase path).2 = some l := by
    simp only [FileTree.openDatabase, here, addressable, vacant, Bool.not_true,
      Bool.false_eq_true, if_false, if_true]
    exact (h.create vacant).1 room
  rcases takes with database | missing | ⟨content, file, small⟩
  · exact h.openDatabase_of_hasDatabase here addressable database
  · exact made (by simp [isVacant, missing, directory])
  · exact made (by simp [isVacant, file, small])

/-! ## Writing and closing -/

theorem noteWriting (h : t.Holds l content) : (t.noteWriting l).Holds l content := by
  unfold FileTree.noteWriting
  split
  · next u usage =>
    refine h.of_spares ((Spares.refl l t).use _) rfl h.journal fun v found => ?_
    obtain rfl : { u with isWritten := true } = v := by simpa using found
    exact h.used u usage
  · exact h

theorem setTable (h : t.Holds l content) (database : t.HasDatabase l)
    {table : OrderedMap String Stored} {content' : String → Option ByteArray}
    (holds : ∀ key, table.get? key = (content' key).map .bytes) :
    Confined l t (t.setTable l table) ∧ (t.setTable l table).Holds l content' := by
  have file : t.isDirectory l = false := by
    obtain ⟨before, node⟩ := database
    simp [isDirectory, node]
  have put : Confined l t (t.put l (.database table)) :=
    .put (.refl l t) rfl h.inside file (.inr ⟨_, rfl⟩) fun _ => ⟨_, rfl⟩
  have noted : Confined l (t.put l (.database table)) (t.setTable l table) :=
    .of_node ((Spares.refl l _).noteWriting l) (fun j other => usages_noteWriting_of_ne other _)
      (node?_noteWriting ..)
  refine ⟨put.trans noted, (h.put (by simp) (fun key => ?_) fun _ => ⟨_, rfl⟩).noteWriting⟩
  rw [held, node?_put_self h.inside]
  exact holds key

theorem closeDatabase (h : t.Holds l content) :
    Confined l t (t.closeDatabase l) ∧ (t.closeDatabase l).Holds l content := by
  unfold FileTree.closeDatabase
  split
  · exact ⟨.refl l t, h⟩
  · next u usage =>
    obtain ⟨uncovered, -, -⟩ := h.used u usage
    -- Nobody else has written over the file, so that closing only removes the log and its index.
    have writable : ({ t with usages := t.usages.erase l } : FileTree).isReadOnly l = false :=
      h.index
    simp only [upToDate, uncovered, writable, Bool.false_eq_true, if_false]
    generalize ending : (({ t with usages := t.usages.erase l } : FileTree).dropLog l).discard
      l.index (fun _ => true) = closed
    have spares : Spares l t closed := ending ▸
      (((Spares.refl l t).use _).discard (.inr (.inr (.inl rfl))) _).discard
        (.inr (.inr (.inr rfl))) _
    have usages : closed.usages = t.usages.erase l := by
      rw [← ending, usages_discard, dropLog, usages_discard]
    have node : closed.node? l = t.node? l := by
      rw [← ending, node?_discard_of_ne (ne_index h.inside), dropLog,
        node?_discard_of_ne (ne_log h.inside)]
      rfl
    have journal : closed.node? l.journal = none := by
      rw [← ending, node?_discard_of_ne (journal_ne_index h.inside), dropLog,
        node?_discard_of_ne (journal_ne_log h.inside)]
      exact h.journal
    refine ⟨.of_node spares (fun j other => ?_) node,
      h.of_spares spares node journal fun u used => ?_⟩
    · rw [usages, OrderedMap.get?_erase_of_ne other]
    · rw [usages, OrderedMap.get?_erase_self] at used
      cases used

end Holds

end FileTree

end LiveState
