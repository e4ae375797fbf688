import LiveState.Proofs.Storage.Directories
import LiveState.Proofs.Storage.Media

/-! # Databases that are opened again

A database that could be opened, read and changed can be opened again after it has been closed, and
has the same table then.
-/

namespace LiveState.FileTree

open Location

variable {t t' t'' : FileTree} {l j : Location} {n : Node} {path : String}
  {table table' : OrderedMap String Stored}

/-! ## What belongs to a database -/

/-- The places of the files of the database at `l`. -/
def Owned (l j : Location) : Prop := j = l ∨ j = l.journal ∨ j = l.log ∨ j = l.index

theorem isDirectory_put_of_not (before : t.isDirectory j = false) (h : n ≠ .directory)
    (i : Location) : (t.put j n).isDirectory i = t.isDirectory i := by
  by_cases here : i = j
  · subst here
    have inside : i ≠ [] := by
      rintro rfl
      cases before
    rw [before, isDirectory, node?_put_self inside]
    cases n <;> first | rfl | exact absurd rfl h
  · rw [isDirectory, isDirectory, node?_put_of_ne here]

theorem node?_remove_self {l : Location} (h : l ≠ []) (t : FileTree) :
    (t.remove l).node? l = none := by
  simp [node?, remove, h]

theorem isDirectory_remove_of_not (before : t.isDirectory j = false) (i : Location) :
    (t.remove j).isDirectory i = t.isDirectory i := by
  by_cases here : i = j
  · subst here
    have inside : i ≠ [] := by
      rintro rfl
      cases before
    rw [before, isDirectory, node?_remove_self inside]
  · rw [isDirectory, isDirectory, node?_remove_of_ne here]

theorem not_isDirectory_of_begins {p : UInt8 → Bool} (h : t.begins j p = true) :
    t.isDirectory j = false := by
  unfold begins at h
  unfold isDirectory
  split <;> simp_all

/-- From `t` to `t'` nothing has changed but files that belong to the database at `l`. -/
structure Spares (l : Location) (t t' : FileTree) : Prop where
  cwd : t'.cwd = t.cwd
  directories : ∀ j, t'.isDirectory j = t.isDirectory j
  nodes : ∀ j, ¬ Owned l j → t'.node? j = t.node? j

namespace Spares

theorem refl (l : Location) (t : FileTree) : Spares l t t := ⟨rfl, fun _ => rfl, fun _ _ => rfl⟩

theorem trans (h : Spares l t t') (k : Spares l t' t'') : Spares l t t'' where
  cwd := k.cwd.trans h.cwd
  directories j := (k.directories j).trans (h.directories j)
  nodes j other := (k.nodes j other).trans (h.nodes j other)

theorem put (h : Spares l t t') (owned : Owned l j) (before : t.isDirectory j = false)
    (file : n ≠ .directory) : Spares l t (t'.put j n) where
  cwd := h.cwd
  directories i := by
    rw [isDirectory_put_of_not ((h.directories j).trans before) file]
    exact h.directories i
  nodes i other := by
    have ne : i ≠ j := by
      rintro rfl
      exact other owned
    rw [node?_put_of_ne ne]
    exact h.nodes i other

theorem remove (h : Spares l t t') (owned : Owned l j) (before : t.isDirectory j = false) :
    Spares l t (t'.remove j) where
  cwd := h.cwd
  directories i := by
    rw [isDirectory_remove_of_not ((h.directories j).trans before)]
    exact h.directories i
  nodes i other := by
    have ne : i ≠ j := by
      rintro rfl
      exact other owned
    rw [node?_remove_of_ne ne]
    exact h.nodes i other

theorem discard (h : Spares l t t') (owned : Owned l j) (p : UInt8 → Bool) :
    Spares l t (t'.discard j p) := by
  unfold FileTree.discard
  split
  · next file =>
    exact h.remove owned ((h.directories j).symm.trans (not_isDirectory_of_begins file))
  · exact h

theorem use (h : Spares l t t') (usages : OrderedMap Location Usage) :
    Spares l t { t' with usages := usages } := ⟨h.cwd, h.directories, h.nodes⟩

theorem noteWriting (h : Spares l t t') (j : Location) : Spares l t (t'.noteWriting j) := by
  unfold FileTree.noteWriting
  split
  · exact h.use _
  · exact h

theorem hasParent (h : Spares l t t') (parent : t.HasParent path)
    (here : resolve t.cwd path = l) (inside : l ≠ []) (there : (t'.node? l).isSome = true) :
    t'.HasParent path := by
  subst here
  refine parent.mono h.cwd (fun j was => (h.directories j).trans was) fun was => ?_
  -- The path may lead to its own directory, as a path that ends in a dot does.
  by_cases same : directory t.cwd path = resolve t.cwd path
  · rw [same]
    exact there
  · have other : ¬ Owned (resolve t.cwd path) (directory t.cwd path) := by
      intro owned
      rcases owned with here | beside | beside | beside
      · exact same here
      · exact directory_ne_beside inside (by decide) beside
      · exact directory_ne_beside inside (by decide) beside
      · exact directory_ne_beside inside (by decide) beside
    rw [h.nodes _ other]
    exact was

end Spares

/-! ## Databases in use and at rest -/

/-- There is a database at `l`, and no directory stands where it keeps its other files. -/
structure Intact (t : FileTree) (l : Location) (table : OrderedMap String Stored) : Prop where
  node : t.node? l = some (.database table)
  journal : t.isDirectory l.journal = false
  log : t.isDirectory l.log = false
  index : t.isDirectory l.index = false

/-- The database at `l`, and no other, is in use. -/
structure InUse (t : FileTree) (l : Location) (table : OrderedMap String Stored) : Prop
    extends t.Intact l table where
  usage : ∃ u, t.usages.entries = [(l, u)] ∧ u.cover = none

/-- No database is in use. -/
structure AtRest (t : FileTree) (l : Location) (table : OrderedMap String Stored) : Prop
    extends t.Intact l table where
  unused : t.usages.entries = []

namespace Intact

theorem inside (h : t.Intact l table) : l ≠ [] := by
  rintro rfl
  cases h.node

theorem isDirectory (h : t.Intact l table) : t.isDirectory l = false := by
  simp [FileTree.isDirectory, h.node]

theorem spared (h : t.Intact l table) (spares : Spares l t t')
    (node : t'.node? l = some (.database table')) : t'.Intact l table' where
  node := node
  journal := (spares.directories _).trans h.journal
  log := (spares.directories _).trans h.log
  index := (spares.directories _).trans h.index

end Intact

theorem get?_usages_of_entries {u : Usage} (h : t.usages.entries = [(l, u)]) :
    t.usages.get? l = some u := by
  simp [OrderedMap.get?, h]

namespace InUse

theorem table? (h : t.InUse l table) : t.table? l = some table := by
  obtain ⟨u, usage, uncovered⟩ := h.usage
  simp [FileTree.table?, h.node, get?_usages_of_entries usage, Usage.isLegible, uncovered]

theorem spares_setTable (h : t.InUse l table) (table' : OrderedMap String Stored) :
    Spares l t (t.setTable l table') :=
  ((Spares.refl l t).put (.inl rfl) h.isDirectory (by simp)).noteWriting l

theorem setTable (h : t.InUse l table) (table' : OrderedMap String Stored) :
    (t.setTable l table').InUse l table' := by
  obtain ⟨u, usage, uncovered⟩ := h.usage
  refine ⟨h.toIntact.spared (h.spares_setTable table') ?_, { u with isWritten := true }, ?_,
    uncovered⟩
  · rw [FileTree.setTable, node?_noteWriting, node?_put_self h.inside]
  · have found : (t.put l (.database table')).usages.get? l = some u :=
      get?_usages_of_entries usage
    have entries : (t.put l (.database table')).usages.entries = [(l, u)] := usage
    simp [FileTree.setTable, noteWriting, found, OrderedMap.insert, OrderedMap.put, entries]

end InUse

/-! ## Opening -/

theorem node?_discard_of_ne (h : j ≠ l) (t : FileTree) (p : UInt8 → Bool) :
    (t.discard l p).node? j = t.node? j := by
  unfold discard
  split
  · exact node?_remove_of_ne h t
  · rfl

theorem usages_discard (t : FileTree) (l : Location) (p : UInt8 → Bool) :
    (t.discard l p).usages = t.usages := by
  unfold discard
  split <;> rfl

theorem spares_enlist (log : t.isDirectory l.log = false) (isNew : Bool) :
    Spares l t (t.enlist l isNew) := by
  have logged : Spares l t (t.put l.log (.file pages)) :=
    (Spares.refl l t).put (.inr (.inr (.inl rfl))) log (by simp)
  unfold FileTree.enlist
  refine Spares.use ?_ _
  split
  · exact logged
  · next writable =>
    refine logged.put (.inr (.inr (.inr rfl))) ?_ (by simp)
    exact (logged.directories _).symm.trans (Bool.not_eq_true _ ▸ writable)

theorem node?_enlist_of_ne (log : j ≠ l.log) (index : j ≠ l.index) (t : FileTree) (isNew : Bool) :
    (t.enlist l isNew).node? j = t.node? j := by
  have logged : (t.put l.log (.file pages)).node? j = t.node? j := node?_put_of_ne log t _
  show (if _ then _ else _ : FileTree).node? j = _
  split
  · exact logged
  · exact (node?_put_of_ne index _ _).trans logged

theorem node?_enlist (inside : l ≠ []) (t : FileTree) (isNew : Bool) :
    (t.enlist l isNew).node? l = t.node? l :=
  node?_enlist_of_ne (ne_log inside) (ne_index inside) t isNew

theorem usages_enlist (t : FileTree) (l : Location) (isNew : Bool) :
    (t.enlist l isNew).usages = t.usages.insert l ⟨isNew, false, none⟩ := by
  show OrderedMap.insert (if _ then _ else _ : FileTree).usages l _ = _
  split <;> rfl

theorem Intact.enlist (h : t.Intact l table) (unused : t.usages.entries = []) (isNew : Bool) :
    (t.enlist l isNew).InUse l table := by
  refine ⟨h.spared (spares_enlist h.log isNew) ?_, ⟨isNew, false, none⟩, ?_, rfl⟩
  · rw [node?_enlist h.inside, h.node]
  · rw [usages_enlist]
    simp [OrderedMap.insert, OrderedMap.put, unused]

theorem AtRest.connect (h : t.AtRest l table) :
    ∃ t', t.connect l = (t', some l) ∧ t'.InUse l table ∧ Spares l t t' := by
  have unused : t.usages.get? l = none := by simp [OrderedMap.get?, h.unused]
  -- Connecting first tidies up a journal that was left.
  have tidied : Spares l t (t.dropJournal l) := (Spares.refl l t).discard (.inr (.inl rfl)) _
  have log : (t.dropJournal l).isDirectory l.log = false := (tidied.directories _).trans h.log
  have node : (t.dropJournal l).node? l = some (.database table) := by
    rw [dropJournal, node?_discard_of_ne (ne_journal h.inside), h.node]
  have idle : (t.dropJournal l).usages.entries = [] := by
    rw [dropJournal, usages_discard, h.unused]
  refine ⟨_, ?_, (h.toIntact.spared tidied node).enlist idle false,
    tidied.trans (spares_enlist log false)⟩
  simp only [FileTree.connect, unused, h.journal, log, Bool.false_eq_true, if_false]

/-- A database at rest can be opened, if its path may be taken. -/
theorem AtRest.openDatabase (h : t.AtRest l table) (addressable : isAddressable t.cwd path = true)
    (here : resolve t.cwd path = l) :
    ∃ t', t.openDatabase path = (t', some l) ∧ t'.InUse l table ∧ Spares l t t' := by
  subst here
  obtain ⟨t', connected, rest⟩ := h.connect
  refine ⟨t', ?_, rest⟩
  have occupied : t.isVacant (resolve t.cwd path) = false := by simp [isVacant, h.node]
  simp only [FileTree.openDatabase, addressable, occupied, h.node, connected, Bool.not_true,
    Bool.false_eq_true, if_false]

/-- Making way spares what does not belong to the database. -/
theorem spares_clear (h : t.clear l = (t', true)) :
    Spares l t t' ∧ t'.isDirectory l.journal = false ∧ t'.isDirectory l.log = false ∧
      t'.usages = t.usages := by
  unfold clear at h
  split at h
  · cases h
  · dsimp only at h
    split at h
    · cases h
    · next free =>
      cases h
      rw [Bool.or_eq_true, not_or, Bool.not_eq_true, Bool.not_eq_true] at free
      have tidied : Spares l t ((t.discard l.journal fun _ => true).dropLog l) :=
        ((Spares.refl l t).discard (.inr (.inl rfl)) _).discard (.inr (.inr (.inl rfl))) _
      have journal : t.isDirectory l.journal = false := by
        rw [← tidied.directories]
        exact free.1
      have cleared := tidied.remove (.inr (.inl rfl)) journal
      refine ⟨cleared, ?_, ?_, ?_⟩
      · exact (cleared.directories _).trans journal
      · rw [cleared.directories, ← tidied.directories]
        exact free.2
      · show ((t.discard l.journal fun _ => true).discard l.log fun _ => true).usages = _
        rw [usages_discard, usages_discard]

/-- A database that was made is new and in use. -/
theorem inUse_of_create (unused : t.usages.entries = []) (inside : l ≠ [])
    (vacant : t.isDirectory l = false) (created : t.create l = (t', some j)) :
    j = l ∧ t'.InUse l .empty ∧ Spares l t t' := by
  unfold create at created
  rcases cleared : t.clear l with ⟨u, _ | _⟩
  · simp [cleared] at created
  · obtain ⟨spares, journal, log, usages⟩ := spares_clear cleared
    simp only [cleared, Bool.not_true, Bool.false_eq_true, if_false] at created
    split at created
    · cases created
    · next writable =>
      -- The way is clear, and an empty database is put there.
      have put := spares.put (.inl rfl) vacant (n := .database .empty) (by simp)
      have same := put.directories
      obtain ⟨rfl, rfl⟩ : l = j ∧ (u.put l (.database .empty)).enlist l true = t' := by
        simpa [and_comm] using created
      have still (j : Location) : (u.put l (.database .empty)).isDirectory j = u.isDirectory j :=
        (put.directories j).trans (spares.directories j).symm
      have intact : (u.put l (.database .empty)).Intact l .empty := by
        refine ⟨node?_put_self inside u _, (still _).trans journal, (still _).trans log, ?_⟩
        exact (still _).trans (Bool.not_eq_true _ ▸ writable)
      have idle : (u.put l (.database .empty)).usages.entries = [] := by
        rw [← unused, ← usages]
        rfl
      exact ⟨rfl, intact.enlist idle true, put.trans (spares_enlist intact.log true)⟩

theorem atRest_of_connect (unused : t.usages.entries = []) (connected : t.connect l = (t', some j))
    (found : t'.table? j = some table) (writable : t'.isReadOnly j = false) :
    j = l ∧ t.AtRest l table := by
  have free : t.usages.get? l = none := by simp [OrderedMap.get?, unused]
  -- Connecting succeeds unless a directory stands where the journal or the log would be.
  simp only [connect, free] at connected
  split at connected
  · cases connected
  · next journal =>
    split at connected
    · cases connected
    · next log =>
      cases connected
      rw [Bool.not_eq_true] at journal log
      have inside := ne_nil_of_table? found
      have tidied : Spares l t (t.dropJournal l) := (Spares.refl l t).discard (.inr (.inl rfl)) _
      have spares := tidied.trans (spares_enlist log false)
      refine ⟨rfl, ⟨?_, journal, ?_, ?_⟩, unused⟩
      · have node : ((t.dropJournal l).enlist l false).node? l = t.node? l := by
          rw [node?_enlist inside, dropJournal, node?_discard_of_ne (ne_journal inside)]
        rw [← node]
        unfold FileTree.table? at found
        split at found
        · next here =>
          split at found
          · rw [here, Option.some.inj found]
          · cases found
        · cases found
      · exact (tidied.directories _).symm.trans log
      · exact (spares.directories _).symm.trans writable

theorem of_isVacant (h : t.isVacant l = true) : l ≠ [] ∧ t.isDirectory l = false := by
  unfold isVacant at h
  split at h
  · next none =>
    refine ⟨?_, by simp [isDirectory, none]⟩
    rintro rfl
    cases none
  · next file =>
    refine ⟨?_, by simp [isDirectory, file]⟩
    rintro rfl
    cases file
  · cases h

/-- A database that was opened, and can be read and changed, is in use. -/
theorem inUse_of_openDatabase (unused : t.usages.entries = [])
    (opened : t.openDatabase path = (t', some l)) (found : t'.table? l = some table)
    (writable : t'.isReadOnly l = false) :
    t'.InUse l table ∧ Spares l t t' ∧ resolve t.cwd path = l ∧
      isAddressable t.cwd path = true := by
  simp only [FileTree.openDatabase] at opened
  split at opened
  · cases opened
  · next addressable =>
    have addressable : isAddressable t.cwd path = true := by simpa using addressable
    -- A file that is empty or missing is made, and everything else is connected to.
    have connected (connected : t.connect (resolve t.cwd path) = (t', some l)) :
        t'.InUse l table ∧ Spares l t t' ∧ resolve t.cwd path = l ∧
          isAddressable t.cwd path = true := by
      obtain ⟨rfl, atRest⟩ := atRest_of_connect unused connected found writable
      obtain ⟨u, again, inUse, spares⟩ := atRest.connect
      rw [connected] at again
      cases again
      exact ⟨inUse, spares, rfl, addressable⟩
    split at opened
    · next vacant =>
      obtain ⟨inside, file⟩ := of_isVacant vacant
      obtain ⟨rfl, inUse, spares⟩ := inUse_of_create unused inside file opened
      cases Option.some.inj (inUse.table?.symm.trans found)
      exact ⟨inUse, spares, rfl, addressable⟩
    · split at opened
      · exact connected opened
      · exact connected opened
      · cases opened
      · cases opened
      · cases opened

/-! ## Closing -/

theorem InUse.closeUnneeded_of_needed (h : t.InUse l table) {isNeeded : Location → Bool}
    (needed : isNeeded l = true) : t.closeUnneeded isNeeded = t := by
  obtain ⟨u, usage, -⟩ := h.usage
  simp [closeUnneeded, OrderedMap.keys, usage, needed]

/-- After its last connection has been closed, a database is at rest. -/
theorem InUse.close (h : t.InUse l table) :
    (t.closeUnneeded fun _ => false).AtRest l table ∧
      Spares l t (t.closeUnneeded fun _ => false) := by
  obtain ⟨u, usage, uncovered⟩ := h.usage
  -- Nobody else has written over the file, so that closing only removes the log and its index.
  have writable : ({ t with usages := t.usages.erase l } : FileTree).isReadOnly l = false := h.index
  have closed : (t.closeUnneeded fun _ => false) =
      ({ t with usages := t.usages.erase l }.discard l.log fun _ => true).discard l.index
        fun _ => true := by
    simp only [closeUnneeded, OrderedMap.keys, usage, List.map_cons, List.map_nil, Bool.not_false,
      List.filter_cons_of_pos, List.filter_nil, List.foldl_cons, List.foldl_nil, closeDatabase,
      get?_usages_of_entries usage, upToDate, uncovered, writable, Bool.false_eq_true, if_false]
    rfl
  have spares : Spares l t (t.closeUnneeded fun _ => false) := by
    rw [closed]
    exact (((Spares.refl l t).use _).discard (.inr (.inr (.inl rfl))) _).discard
      (.inr (.inr (.inr rfl))) _
  refine ⟨⟨h.toIntact.spared spares ?_, ?_⟩, spares⟩
  · rw [closed, node?_discard_of_ne (ne_index h.inside), node?_discard_of_ne (ne_log h.inside)]
    exact h.node
  · rw [closed, usages_discard, usages_discard]
    simp [OrderedMap.erase, usage]

/-! ## Again and again -/

/-- The path leads to a database that can be opened, read and changed.  No database is in use. -/
def Serves (t : FileTree) (path : String) (l : Location) (table : OrderedMap String Stored) :
    Prop :=
  t.usages.entries = [] ∧ ∃ t' t'', t.prepareParent path = (t', none) ∧
    t'.openDatabase path = (t'', some l) ∧ t''.table? l = some table ∧ t''.isReadOnly l = false

/-- The database at the end of the path is in use, and nothing is in the way of opening it again. -/
structure Attached (t : FileTree) (path : String) (l : Location)
    (table : OrderedMap String Stored) : Prop extends t.InUse l table where
  parent : t.HasParent path
  here : resolve t.cwd path = l
  addressable : isAddressable t.cwd path = true

theorem Attached.spared (h : t.Attached path l table) (spares : Spares l t t')
    (inUse : t'.InUse l table') : t'.Attached path l table' := by
  refine ⟨inUse, ?_, ?_, ?_⟩
  · exact spares.hasParent h.parent h.here h.inside (by rw [inUse.node]; rfl)
  · rw [spares.cwd]
    exact h.here
  · rw [spares.cwd]
    exact h.addressable

theorem Attached.setTable (h : t.Attached path l table) (table' : OrderedMap String Stored) :
    (t.setTable l table').Attached path l table' :=
  h.spared (h.spares_setTable table') (h.toInUse.setTable table')

theorem Serves.attach (h : t.Serves path l table) :
    ∃ t' t'', t.prepareParent path = (t', none) ∧ t'.openDatabase path = (t'', some l) ∧
      t''.Attached path l table := by
  obtain ⟨unused, t', t'', made, opened, found, writable⟩ := h
  obtain ⟨parent, -, usages⟩ := hasParent_of_prepareParent made
  obtain ⟨inUse, spares, here, addressable⟩ :=
    inUse_of_openDatabase (by rw [usages, unused]) opened found writable
  refine ⟨t', t'', made, opened, inUse, ?_, ?_, ?_⟩
  · exact spares.hasParent parent here inUse.inside (by rw [inUse.node]; rfl)
  · rw [spares.cwd]
    exact here
  · rw [spares.cwd]
    exact addressable

/-- A database at rest can be opened, if its directory is there and its path may be taken. -/
theorem AtRest.serves (h : t.AtRest l table) (parent : t.HasParent path)
    (here : resolve t.cwd path = l) (addressable : isAddressable t.cwd path = true) :
    t.Serves path l table := by
  obtain ⟨t', opened, inUse, -⟩ := h.openDatabase addressable here
  exact ⟨h.unused, t, t', parent.prepareParent, opened, inUse.table?, inUse.index⟩

/-- What was closed can be opened again, and has the same table. -/
theorem Attached.close (h : t.Attached path l table) :
    (t.closeUnneeded fun _ => false).Serves path l table := by
  obtain ⟨atRest, spares⟩ := h.toInUse.close
  have parent := spares.hasParent h.parent h.here h.inside (by rw [atRest.node]; rfl)
  exact atRest.serves parent (by rw [spares.cwd, h.here]) (by rw [spares.cwd, h.addressable])

end LiveState.FileTree
