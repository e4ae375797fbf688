import LiveState.Storage.Media

/-! # What media hold

What is under a key of a medium, whether or not the medium would tell, and what becomes of it when
something is written.
-/

namespace LiveState

theorem FileTree.ne_nil_of_table? {t : FileTree} {l : Location} {table : OrderedMap String Stored}
    (found : t.table? l = some table) : l ≠ [] := by
  rintro rfl
  simp [table?, node?] at found

/-- What was answered, unless the medium has panicked. -/
def Response.answer? {α : Type} : Response α → Option (Except StorageError α)
  | .answered a => some (.ok a)
  | .failed e => some (.error e)
  | .panicked => none

namespace Media

/-- What a medium holds under a key. -/
def holding (m : Media) (medium : Medium) (key : String) : Option Stored :=
  match medium with
  | .disabled => none
  | .region i | .switched i _ => (m.lookup i key).map .bytes
  | .database l => (m.files.table? l).bind (·.get? key)

/-- Whether the table of a medium in memory is there. -/
def Has (m : Media) : Medium → Prop
  | .region i | .switched i _ => i < m.regions.size
  | .disabled | .database _ => True

variable {m m' : Media} {medium : Medium} {key : String} {bytes : ByteArray}

theorem Has.mono (h : m.Has medium) (grows : m.regions.size ≤ m'.regions.size) :
    m'.Has medium := by
  cases medium with
  | region i | switched i s => exact Nat.lt_of_lt_of_le h grows
  | disabled | database l => trivial

/-! ## Writing -/

theorem lookup_store {i : Nat} (h : i < m.regions.size) :
    (m.store i key bytes).lookup i key = some bytes := by
  simp [lookup, store, Array.getElem?_modify, Array.getElem?_eq_getElem h]

theorem lookup_store_of_ne {i j : Nat} {key' : String} (other : j ≠ i ∨ key' ≠ key) :
    (m.store i key bytes).lookup j key' = m.lookup j key' := by
  simp only [lookup, store, Array.getElem?_modify]
  split
  · next same =>
    subst same
    have different : key' ≠ key := other.resolve_left fun ne => ne rfl
    cases m.regions[i]? with
    | none => rfl
    | some table => exact OrderedMap.get?_insert_of_ne different table bytes
  · rfl

theorem size_regions_store (i : Nat) : (m.store i key bytes).regions.size = m.regions.size := by
  simp [store]

theorem size_regions_write : (m.write medium key bytes).2.regions.size = m.regions.size := by
  cases medium with
  | disabled => rfl
  | region i => exact size_regions_store i
  | switched i s =>
    simp only [write]
    split
    · exact size_regions_store i
    all_goals rfl
  | database l =>
    simp only [write]
    split
    · split <;> rfl
    · rfl

theorem size_regions_of_write {r : Response Unit} (wrote : m.write medium key bytes = (r, m')) :
    m'.regions.size = m.regions.size := by
  rw [← size_regions_write (m := m), wrote]

theorem holding_of_answered (has : m.Has medium)
    (wrote : m.write medium key bytes = (.answered (), m')) :
    m'.holding medium key = some (.bytes bytes) := by
  cases medium with
  | disabled => cases wrote
  | region i =>
    cases wrote
    simp [holding, lookup_store has]
  | switched i s =>
    simp only [write] at wrote
    split at wrote
    · cases wrote
      simp [holding, lookup_store has]
    all_goals cases wrote
  | database l =>
    simp only [write] at wrote
    -- A database answers only if its table can be read and changed.
    split at wrote
    · next found =>
      split at wrote
      · cases wrote
      · cases wrote
        simp [holding, FileTree.table?_setTable_self (FileTree.ne_nil_of_table? found)]
    · cases wrote

/-- Unless the medium answers, nothing was written. -/
theorem write_eq_of_not_answered {r : Response Unit}
    (wrote : m.write medium key bytes = (r, m')) (h : r ≠ .answered ()) : m' = m := by
  cases medium with
  | disabled =>
    cases wrote
    rfl
  | region i =>
    cases wrote
    exact absurd rfl h
  | switched i s =>
    simp only [write] at wrote
    split at wrote
    · cases wrote
      exact absurd rfl h
    all_goals cases wrote; rfl
  | database l =>
    simp only [write] at wrote
    split at wrote
    · split at wrote
      · cases wrote
        rfl
      · cases wrote
        exact absurd rfl h
    · cases wrote
      rfl

/-- A medium that answers goes on answering when something has been written. -/
theorem read_of_write {before : Option ByteArray} (wrote : ByteArray)
    (reads : (m.read medium key).answer? = some (.ok before)) :
    ∃ after, ((m.write medium key wrote).2.read medium key).answer? = some (.ok after) := by
  cases medium with
  | disabled => exact ⟨none, rfl⟩
  | region i => exact ⟨_, rfl⟩
  | switched i s =>
    -- Writing turns no switches.
    have mode : (m.write (.switched i s) key wrote).2.mode s (·.read) = m.mode s (·.read) := by
      simp only [write]
      split <;> rfl
    simp only [read] at reads ⊢
    rw [mode]
    split at reads
    · exact ⟨_, rfl⟩
    all_goals cases reads
  | database l =>
    simp only [write]
    split
    · next table found =>
      split
      · exact ⟨before, reads⟩
      · simp only [read, FileTree.table?_setTable_self (FileTree.ne_nil_of_table? found),
          OrderedMap.get?_insert_self]
        exact ⟨some wrote, rfl⟩
    · exact ⟨before, reads⟩

theorem has_of_holding {stored : Stored} (holds : m.holding medium key = some stored) :
    m.Has medium := by
  cases medium with
  | disabled | database l => trivial
  | region i | switched i s =>
    obtain ⟨bytes, there, -⟩ := Option.map_eq_some_iff.1 holds
    obtain ⟨table, found, -⟩ := Option.bind_eq_some_iff.1 there
    exact (Array.getElem?_eq_some_iff.1 found).1

theorem holding_of_read (reads : (m.read medium key).answer? = some (.ok (some bytes))) :
    m.holding medium key = some (.bytes bytes) := by
  cases medium with
  | disabled => cases reads
  | region i =>
    have there : m.lookup i key = some bytes := by simpa [read, Response.answer?] using reads
    simp [holding, there]
  | switched i s =>
    simp only [read] at reads
    split at reads
    · have there : m.lookup i key = some bytes := by simpa [Response.answer?] using reads
      simp [holding, there]
    all_goals cases reads
  | database l =>
    simp only [read] at reads
    split at reads
    · next table found =>
      split at reads
      · cases reads
      · next stored there =>
        have same : stored = bytes := by simpa [Response.answer?] using reads
        simp [holding, found, there, same]
      · cases reads
    · cases reads

/-! ## Other changes -/

@[simp] theorem size_regions_newRegion (entries : OrderedMap String ByteArray) :
    (m.newRegion entries).2.regions.size = m.regions.size + 1 := by
  simp [newRegion]

@[simp] theorem size_regions_newSwitched (entries : OrderedMap String ByteArray) (s : Switches) :
    (m.newSwitched entries s).2.regions.size = m.regions.size + 1 := by
  simp [newSwitched]

@[simp] theorem newRegion_has (entries : OrderedMap String ByteArray) :
    (m.newRegion entries).2.Has (m.newRegion entries).1 := by
  simp [newRegion, Has]

@[simp] theorem newSwitched_has (entries : OrderedMap String ByteArray) (s : Switches) :
    (m.newSwitched entries s).2.Has (m.newSwitched entries s).1 := by
  simp [newSwitched, Has]

theorem size_regions_turn (reads writes : Option FaultMode) :
    (m.turn medium reads writes).regions.size = m.regions.size := by
  cases medium <;> rfl

theorem files_turn (reads writes : Option FaultMode) :
    (m.turn medium reads writes).files = m.files := by
  cases medium <;> rfl

/-- Turning switches changes what a medium does, but not what it holds. -/
theorem holding_turn (other : Medium) (reads writes : Option FaultMode) :
    (m.turn other reads writes).holding medium key = m.holding medium key := by
  cases other <;> cases medium <;> rfl

/-- Turning the switch for writes alone leaves what is read. -/
theorem read_turn (other : Medium) (writes : Option FaultMode) :
    (m.turn other none writes).read medium key = m.read medium key := by
  cases other with
  | disabled | region | database => rfl
  | switched _ t =>
    cases medium with
    | disabled | region | database => rfl
    | switched i s =>
      have mode : (m.turn (.switched i t) none writes).mode s (·.read) = m.mode s (·.read) := by
        simp only [turn, Media.mode, Array.getElem?_modify]
        split <;> cases m.switches[s]? <;> rfl
      show (m.turn (.switched i t) none writes).read _ _ = _
      simp only [read, mode]
      rfl

theorem mode_turn {i s : Nat} (there : s < m.switches.size) (writes : FaultMode) :
    (m.turn (.switched i s) none (some writes)).mode s (·.write) = writes := by
  simp [turn, mode, there, Array.getElem_modify]

/-- A database that was opened is there, and no table in memory is taken away. -/
theorem openDatabase_has (path : String) :
    m.regions.size ≤ (m.openDatabase path).2.regions.size ∧
      ∀ medium, (m.openDatabase path).1 = .ok medium → (m.openDatabase path).2.Has medium := by
  simp only [openDatabase]
  split
  · refine ⟨by simp, fun medium opened => ?_⟩
    cases opened
    exact newRegion_has _
  · split
    · exact ⟨Nat.le_refl _, fun medium opened => by cases opened⟩
    · next files _ =>
      refine ⟨Nat.le_refl _, fun medium opened => ?_⟩
      cases location : (files.openDatabase path).2 with
      | none => simp [location] at opened
      | some l =>
        have same : Medium.database l = medium := by simpa [location] using opened
        subst same
        trivial

end Media

end LiveState
