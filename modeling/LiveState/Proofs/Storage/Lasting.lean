import LiveState.Proofs.Storage.Media
import LiveState.Proofs.Storage.Sharing

/-! # Databases that last

A table that can be reached stays reachable, whatever databases are opened and closed, unless it is
its own database that is closed, or its file is one that other databases keep beside theirs.
-/

namespace LiveState

open Location

/-- Whether the database at `j` keeps one of its files at `l`, beside its own. -/
def Location.IsBeside (l j : Location) : Prop := ∃ e ∈ endings, j.beside e = l

namespace FileTree

variable {t t' t'' : FileTree} {l j : Location} {path : String} {n : Node}
  {table : OrderedMap String Stored}

/-- From `t` to `t'` the database at `l` was left alone, or only came into use. -/
structure Lasts (l : Location) (t t' : FileTree) : Prop where
  node : t'.node? l = t.node? l
  usage : t'.usages.get? l = t.usages.get? l ∨
    t.usages.get? l = none ∧ (t'.usages.get? l).all Usage.isLegible = true

namespace Lasts

theorem refl (l : Location) (t : FileTree) : Lasts l t t := ⟨rfl, .inl rfl⟩

theorem trans (h : Lasts l t t') (k : Lasts l t' t'') : Lasts l t t'' := by
  refine ⟨k.node.trans h.node, ?_⟩
  obtain same | ⟨unused, legible⟩ := k.usage
  · rw [same]
    exact h.usage
  · obtain same | ⟨unused', -⟩ := h.usage
    · exact .inr ⟨same ▸ unused, legible⟩
    · exact .inr ⟨unused', legible⟩

theorem table? (h : Lasts l t t') (found : t.table? l = some table) : t'.table? l = some table := by
  unfold FileTree.table? at found ⊢
  rw [h.node]
  split at found
  · split at found
    · next legible =>
      obtain same | ⟨-, legible'⟩ := h.usage
      · rw [same, if_pos legible, found]
      · rw [if_pos legible', found]
    · cases found
  · cases found

theorem put_of_ne (h : Lasts l t t') (other : l ≠ j) (n : Node) : Lasts l t (t'.put j n) :=
  h.trans ⟨node?_put_of_ne other t' n, .inl rfl⟩

theorem remove_of_ne (h : Lasts l t t') (other : l ≠ j) : Lasts l t (t'.remove j) :=
  h.trans ⟨node?_remove_of_ne other t', .inl rfl⟩

theorem discard_of_ne (h : Lasts l t t') (other : l ≠ j) (p : UInt8 → Bool) :
    Lasts l t (t'.discard j p) :=
  h.trans ⟨node?_discard_of_ne other t' p, .inl (by rw [usages_discard])⟩

end Lasts

section

variable (own : ¬ l.IsBeside j)
include own

theorem own_ne_journal : l ≠ j.journal := fun same => own ⟨_, by decide, same.symm⟩

theorem own_ne_log : l ≠ j.log := fun same => own ⟨_, by decide, same.symm⟩

theorem own_ne_index : l ≠ j.index := fun same => own ⟨_, by decide, same.symm⟩

/-! ## Opening -/

theorem lasts_clear (other : l ≠ j) (t : FileTree) : Lasts l t (t.clear j).1 := by
  have touched (t : FileTree) : Lasts l t (t.touch j) := by
    unfold touch
    split
    · exact (Lasts.refl l t).put_of_ne other _
    · exact .refl l t
  unfold clear
  split
  · exact touched t
  · have tidied : Lasts l t ((t.discard j.journal fun _ => true).dropLog j) :=
      ((Lasts.refl l t).discard_of_ne (own_ne_journal own) _).discard_of_ne (own_ne_log own) _
    simp only
    split
    · exact tidied.trans (touched _)
    · exact tidied.remove_of_ne (own_ne_journal own)

theorem lasts_enlist (unused : t.usages.get? j = none) (isNew : Bool) :
    Lasts l t (t.enlist j isNew) := by
  refine ⟨node?_enlist_of_ne (own_ne_log own) (own_ne_index own) t isNew, ?_⟩
  rw [usages_enlist]
  by_cases here : l = j
  · subst here
    refine .inr ⟨unused, ?_⟩
    rw [OrderedMap.get?_insert_self]
    rfl
  · exact .inl (OrderedMap.get?_insert_of_ne here ..)

theorem lasts_create (other : l ≠ j) (t : FileTree) : Lasts l t (t.create j).1 := by
  have cleared := lasts_clear own other t
  unfold create
  rcases result : t.clear j with ⟨u, _ | _⟩ <;> rw [result] at cleared
  · exact cleared
  · simp only [Bool.not_true, Bool.false_eq_true, if_false]
    split
    · exact (cleared.put_of_ne other _).put_of_ne (own_ne_log own) _
    · -- The new database is elsewhere, so that its being in use does not matter.
      have made : Lasts l t (u.put j (.database .empty)) := cleared.put_of_ne other _
      refine made.trans ⟨?_, .inl ?_⟩
      · exact node?_enlist_of_ne (own_ne_log own) (own_ne_index own) _ true
      · rw [usages_enlist]
        exact OrderedMap.get?_insert_of_ne other ..

theorem lasts_connect (t : FileTree) : Lasts l t (t.connect j).1 := by
  unfold connect
  split
  · next u _ =>
    unfold join
    split
    · have tidied := (Lasts.refl l t).discard_of_ne (own_ne_journal own) fun _ => true
      simp only
      split
      · exact tidied.discard_of_ne (own_ne_log own) _
      · exact tidied
    · exact .refl l t
  · next unused =>
    split
    · exact .refl l t
    · have tidied : Lasts l t (t.dropJournal j) :=
        (Lasts.refl l t).discard_of_ne (own_ne_journal own) _
      simp only
      split
      · exact tidied
      · refine tidied.trans (lasts_enlist own ?_ false)
        rw [dropJournal, usages_discard, unused]

theorem lasts_sweep (t : FileTree) : Lasts l t (t.sweep j) := by
  unfold sweep
  split
  · exact .refl l t
  · have tidied : Lasts l t (t.dropJournal j) :=
      (Lasts.refl l t).discard_of_ne (own_ne_journal own) _
    simp only
    split
    · exact (tidied.remove_of_ne (own_ne_log own)).remove_of_ne (own_ne_index own)
    · exact tidied

end

/-- Whatever database is opened, a table that can be reached can be reached afterwards. -/
theorem lasts_openDatabase (found : t.table? l = some table)
    (own : ¬ l.IsBeside (resolve t.cwd path)) : Lasts l t (t.openDatabase path).1 := by
  unfold openDatabase
  simp only
  split
  · exact .refl l t
  · split
    · next vacant =>
      refine lasts_create own ?_ t
      -- Where there is a vacancy there is no table.
      rintro rfl
      unfold table? at found
      split at found
      · next there => simp [isVacant, there] at vacant
      · cases found
    · split
      · exact lasts_connect own t
      · exact lasts_connect own t
      · exact lasts_sweep own t
      · exact .refl l t
      · exact .refl l t

/-! ## Closing -/

theorem lasts_closeDatabase (own : ¬ l.IsBeside j) (other : l ≠ j) (t : FileTree) :
    Lasts l t (t.closeDatabase j) := by
  unfold closeDatabase
  split
  · exact .refl l t
  · next u _ =>
    have upToDate : Lasts l t (t.upToDate j u) := by
      unfold FileTree.upToDate
      split
      · exact .refl l t
      · split
        · exact .refl l t
        · split <;> exact (Lasts.refl l t).put_of_ne other _
    have forgotten : Lasts l t { t.upToDate j u with usages := t.usages.erase j } :=
      ⟨upToDate.node, .inl (OrderedMap.get?_erase_of_ne other _)⟩
    simp only
    split
    · exact forgotten.put_of_ne (own_ne_log own) _
    · exact (forgotten.discard_of_ne (own_ne_log own) _).discard_of_ne (own_ne_index own) _

theorem lasts_closeUnneeded {isNeeded : Location → Bool} (needed : isNeeded l = true)
    (own : ∀ j, (t.usages.get? j).isSome = true → ¬ l.IsBeside j) :
    Lasts l t (t.closeUnneeded isNeeded) := by
  have closes (ls : List Location) (unneeded : ∀ j ∈ ls, ¬ l.IsBeside j ∧ isNeeded j = false)
      (t : FileTree) : Lasts l t (ls.foldl closeDatabase t) := by
    induction ls generalizing t with
    | nil => exact .refl l t
    | cons j ls ih =>
      obtain ⟨own, off⟩ := unneeded j List.mem_cons_self
      refine (lasts_closeDatabase own ?_ t).trans
        (ih (fun i there => unneeded i (List.mem_cons_of_mem j there)) _)
      rintro rfl
      exact nomatch needed.symm.trans off
  refine closes _ (fun j there => ?_) t
  obtain ⟨used, off⟩ := List.mem_filter.1 there
  obtain ⟨u, usage⟩ := OrderedMap.mem_keys.1 used
  exact ⟨own j (Option.isSome_of_eq_some usage), by simpa using off⟩

/-- Directories that are made replace nothing. -/
theorem lasts_of_widened {gone : List Location} (found : t.table? l = some table)
    (widened : Widened gone t t') : Lasts l t t' := by
  refine ⟨?_, .inl (by rw [widened.usages])⟩
  cases there : t.node? l with
  | none => simp [table?, there] at found
  | some n => exact widened.node? there

theorem lasts_makeDirectories (found : t.table? l = some table) (path : String) :
    Lasts l t (t.makeDirectories path).1 := by
  have made (start : Location) (ps : List String) : Lasts l t (t.makeAlong start ps).1 :=
    lasts_of_widened found (t.makeAlong_widens start ps)
  simp only [makeDirectories]
  split
  · exact .refl l t
  · split
    · exact .refl l t
    · split
      · exact made _ _
      · exact made _ _

/-! ## Databases that come into use -/

/-- From `t` to `t'` no databases came into use but those that are told. -/
structure Engages (told : Location → Prop) (t t' : FileTree) : Prop where
  cwd : t'.cwd = t.cwd
  used : ∀ j, (t'.usages.get? j).isSome = true → (t.usages.get? j).isSome = true ∨ told j

namespace Engages

variable {told told' : Location → Prop}

theorem of_eq (cwd : t'.cwd = t.cwd) (usages : t'.usages = t.usages) : Engages told t t' :=
  ⟨cwd, fun _ used => .inl (usages ▸ used)⟩

theorem refl (t : FileTree) : Engages told t t := .of_eq rfl rfl

theorem trans (h : Engages told t t') (k : Engages told t' t'') : Engages told t t'' :=
  ⟨k.cwd.trans h.cwd, fun j used => (k.used j used).elim (h.used j) .inr⟩

theorem mono (h : Engages told t t') (imp : ∀ j, told j → told' j) : Engages told' t t' :=
  ⟨h.cwd, fun j used => (h.used j used).imp_right (imp j)⟩

theorem put (h : Engages told t t') (j : Location) (n : Node) : Engages told t (t'.put j n) :=
  ⟨h.cwd, h.used⟩

theorem remove (h : Engages told t t') (j : Location) : Engages told t (t'.remove j) :=
  ⟨h.cwd, h.used⟩

theorem discard (h : Engages told t t') (j : Location) (p : UInt8 → Bool) :
    Engages told t (t'.discard j p) := by
  unfold FileTree.discard
  split
  · exact h.remove j
  · exact h

theorem touch (h : Engages told t t') (j : Location) : Engages told t (t'.touch j) := by
  unfold FileTree.touch
  split
  · exact h.put j _
  · exact h

theorem renew (h : Engages told t t') {u : Usage} (used : (t'.usages.get? j).isSome = true ∨ told j) :
    Engages told t { t' with usages := t'.usages.insert j u } := by
  refine ⟨h.cwd, fun i there => ?_⟩
  by_cases here : i = j
  · subst here
    exact used.elim (h.used i) .inr
  · exact h.used i (by rwa [← OrderedMap.get?_insert_of_ne here])

theorem enlist (h : Engages told t t') (here : told j) (isNew : Bool) :
    Engages told t (t'.enlist j isNew) := by
  unfold FileTree.enlist
  simp only
  split
  · exact (h.put _ _).renew (.inr here)
  · exact ((h.put _ _).put _ _).renew (.inr here)

theorem noteWriting (h : Engages told t t') (j : Location) :
    Engages told t (t'.noteWriting j) := by
  unfold FileTree.noteWriting
  split
  · next u usage => exact h.renew (.inl (Option.isSome_of_eq_some usage))
  · exact h

end Engages

variable {told : Location → Prop}

theorem engages_setTable (t : FileTree) (l : Location) (table : OrderedMap String Stored) :
    Engages told t (t.setTable l table) :=
  ((Engages.refl t).put l _).noteWriting l

theorem engages_clear (t : FileTree) (l : Location) : Engages told t (t.clear l).1 := by
  unfold clear
  split
  · exact (Engages.refl t).touch l
  · have tidied : Engages told t ((t.discard l.journal fun _ => true).dropLog l) :=
      ((Engages.refl t).discard _ _).discard _ _
    simp only
    split
    · exact tidied.touch l
    · exact tidied.remove _

theorem engages_create (t : FileTree) (l : Location) : Engages (· = l) t (t.create l).1 := by
  have cleared : Engages (· = l) t (t.clear l).1 := engages_clear t l
  unfold create
  rcases result : t.clear l with ⟨u, _ | _⟩ <;> rw [result] at cleared
  · exact cleared
  · simp only [Bool.not_true, Bool.false_eq_true, if_false]
    split
    · exact (cleared.put _ _).put _ _
    · exact (cleared.put _ _).enlist rfl true

theorem engages_connect (t : FileTree) (l : Location) : Engages (· = l) t (t.connect l).1 := by
  unfold connect
  split
  · unfold join
    split
    · have tidied : Engages (· = l) t (t.discard l.journal fun _ => true) :=
        (Engages.refl t).discard _ _
      simp only
      split
      · exact tidied.discard _ _
      · exact tidied
    · exact .refl t
  · split
    · exact .refl t
    · have tidied : Engages (· = l) t (t.dropJournal l) := (Engages.refl t).discard _ _
      simp only
      split
      · exact tidied
      · exact tidied.enlist rfl false

theorem engages_sweep (t : FileTree) (l : Location) : Engages told t (t.sweep l) := by
  unfold sweep
  split
  · exact .refl t
  · have tidied : Engages told t (t.dropJournal l) := (Engages.refl t).discard _ _
    simp only
    split
    · exact (tidied.remove _).remove _
    · exact tidied

/-- At most the database at the path comes into use. -/
theorem engages_openDatabase (t : FileTree) (path : String) :
    Engages (· = resolve t.cwd path) t (t.openDatabase path).1 := by
  unfold openDatabase
  simp only
  split
  · exact .refl t
  · split
    · exact engages_create t _
    · split
      · exact engages_connect t _
      · exact engages_connect t _
      · exact engages_sweep t _
      · exact .refl t
      · exact .refl t

theorem engages_closeDatabase (t : FileTree) (l : Location) :
    Engages told t (t.closeDatabase l) := by
  unfold closeDatabase
  split
  · exact .refl t
  · next u _ =>
    have upToDate : Engages told t (t.upToDate l u) := by
      unfold FileTree.upToDate
      split
      · exact .refl t
      · split
        · exact .refl t
        · split <;> exact (Engages.refl t).put _ _
    have forgotten : Engages told t { t.upToDate l u with usages := t.usages.erase l } := by
      refine ⟨upToDate.cwd, fun j used => .inl ?_⟩
      obtain ⟨v, usage⟩ := Option.isSome_iff_exists.1 used
      exact Option.isSome_of_eq_some (OrderedMap.get?_of_get?_erase usage)
    simp only
    split
    · exact forgotten.put _ _
    · exact (forgotten.discard _ _).discard _ _

theorem engages_closeUnneeded (t : FileTree) (isNeeded : Location → Bool) :
    Engages told t (t.closeUnneeded isNeeded) := by
  have closes (ls : List Location) (t : FileTree) : Engages told t (ls.foldl closeDatabase t) := by
    induction ls generalizing t with
    | nil => exact .refl t
    | cons l ls ih => exact (engages_closeDatabase t l).trans (ih _)
  exact closes _ t

theorem engages_writeFile {content : ByteArray} (wrote : t.writeFile path content = some t') :
    Engages told t t' := by
  simp only [writeFile, Option.bind_eq_bind, Option.bind_eq_some_iff] at wrote
  obtain ⟨l, -, wrote⟩ := wrote
  split at wrote
  · cases wrote
  · cases wrote
    unfold overwrite
    split
    · next u usage => exact (Engages.refl t).renew (.inl (Option.isSome_of_eq_some usage))
    · exact (Engages.refl t).put l _

theorem engages_alter (t : FileTree) (path : String) (f : Node → Node) :
    Engages (· = resolve t.cwd path) t (t.alter path f) := by
  unfold alter
  simp only
  split
  · have cleared : Engages (· = resolve t.cwd path) t (t.clear (resolve t.cwd path)).1 :=
      engages_clear t _
    split
    · exact cleared.put _ _
    · exact cleared
  · have opened := engages_openDatabase t path
    split
    · exact opened
    · have altered (u : FileTree) (h : Engages (· = resolve t.cwd path) t u) (n : Node) :
          Engages (· = resolve t.cwd path) t ((u.put (resolve t.cwd path) n).noteWriting
            (resolve t.cwd path)) := (h.put _ _).noteWriting _
      split <;> split
      all_goals first
        | exact opened
        | exact altered _ opened _
        | exact opened.trans (engages_closeDatabase _ _)
        | exact (altered _ opened _).trans (engages_closeDatabase _ _)

theorem engages_makeDirectories (t : FileTree) (path : String) :
    Engages told t (t.makeDirectories path).1 := by
  have made (start : Location) (ps : List String) : Engages told t (t.makeAlong start ps).1 :=
    have widened := t.makeAlong_widens start ps
    .of_eq widened.cwd widened.usages
  simp only [makeDirectories]
  split
  · exact .refl t
  · split
    · exact .refl t
    · split
      · exact made _ _
      · exact made _ _

end FileTree

/-! ## Media -/

/-- The table behind a medium: one in memory, or that of a database. -/
def Medium.table : Medium → Option Nat ⊕ Location
  | .disabled => .inl none
  | .region i | .switched i _ => .inl (some i)
  | .database l => .inr l

/-- What is written to the one medium can be read from the other. -/
def Medium.Shares (a b : Medium) : Prop := a ≠ .disabled ∧ a.table = b.table

instance (a b : Medium) : Decidable (a.Shares b) := inferInstanceAs (Decidable (_ ∧ _))

namespace Media

variable {m : Media} {medium : Medium} {key : String} {stored : Stored}

theorem holding_newRegion (holds : m.holding medium key = some stored)
    (entries : OrderedMap String ByteArray) :
    (m.newRegion entries).2.holding medium key = some stored := by
  have has := has_of_holding holds
  rw [← holds]
  cases medium with
  | disabled | database l => rfl
  | region i | switched i s =>
    have small : i < m.regions.size := has
    simp [holding, lookup, newRegion, Array.getElem?_push, Nat.ne_of_lt small]

theorem holding_newSwitched (holds : m.holding medium key = some stored)
    (entries : OrderedMap String ByteArray) (s : Switches) :
    (m.newSwitched entries s).2.holding medium key = some stored := by
  rw [← holding_newRegion holds entries]
  cases medium <;> rfl

/-- A table that lasts holds what it held. -/
theorem holding_of_lasts {files : FileTree} (holds : m.holding medium key = some stored)
    (lasts : ∀ l table, medium = .database l → m.files.table? l = some table →
      FileTree.Lasts l m.files files) :
    { m with files := files }.holding medium key = some stored := by
  rw [← holds]
  cases medium with
  | disabled | region i | switched i s => rfl
  | database l =>
    obtain ⟨table, found, there⟩ := Option.bind_eq_some_iff.1 holds
    simp only [holding, found, (lasts l table rfl found).table? found]

/-- Opening a database takes nothing away from other media, unless it is there that it keeps one of
    its files. -/
theorem holding_openDatabase {path : String} (holds : m.holding medium key = some stored)
    (own : ∀ l, medium = .database l → ¬ l.IsBeside (resolve m.files.cwd path)) :
    (m.openDatabase path).2.holding medium key = some stored := by
  simp only [openDatabase]
  split
  · exact holding_newRegion holds .empty
  · have widened := m.files.prepareParent_widens path
    split
    · next files failure prepared =>
      rw [prepared] at widened
      exact holding_of_lasts holds fun l table _ found => FileTree.lasts_of_widened found widened
    · next files prepared =>
      rw [prepared] at widened
      refine holding_of_lasts holds fun l table same found => ?_
      have lasts := FileTree.lasts_of_widened found widened
      refine lasts.trans (FileTree.lasts_openDatabase (lasts.table? found) ?_)
      rw [widened.cwd]
      exact own l same

theorem holding_closeUnneeded {isNeeded : Location → Bool}
    (holds : m.holding medium key = some stored)
    (needed : ∀ l, medium = .database l → isNeeded l = true)
    (own : ∀ l, medium = .database l → ∀ j, (m.files.usages.get? j).isSome = true →
      ¬ l.IsBeside j) :
    { m with files := m.files.closeUnneeded isNeeded }.holding medium key = some stored :=
  holding_of_lasts holds fun l _ same _ =>
    FileTree.lasts_closeUnneeded (needed l same) (own l same)

theorem holding_write_of_apart {medium' : Medium} {key' : String}
    (apart : key ≠ key' ∨ ¬ medium'.Shares medium) (bytes : ByteArray) :
    (m.write medium' key' bytes).2.holding medium key = m.holding medium key := by
  have stored (i : Nat) (aside : key ≠ key' ∨ medium.table ≠ .inl (some i)) :
      (m.store i key' bytes).holding medium key = m.holding medium key := by
    cases medium with
    | disabled | database l => rfl
    | region j | switched j s =>
      have other : j ≠ i ∨ key ≠ key' :=
        aside.symm.imp_left fun ne same => ne (congrArg (Sum.inl ∘ some) same)
      simp only [holding, lookup_store_of_ne other]
  -- What was written can only be seen by who shares the table and asks for the same key.
  cases medium' with
  | disabled => rfl
  | region i => exact stored i (apart.imp_right fun no same => no ⟨by simp, same.symm⟩)
  | switched i s =>
    simp only [write]
    split
    · exact stored i (apart.imp_right fun no same => no ⟨by simp, same.symm⟩)
    all_goals rfl
  | database l =>
    simp only [write]
    split
    · next table found =>
      split
      · rfl
      · cases medium with
        | disabled | region j | switched j s => rfl
        | database j =>
          by_cases here : j = l
          · subst here
            have inside := FileTree.ne_nil_of_table? found
            have other : key ≠ key' := apart.resolve_right fun no => no ⟨by simp, rfl⟩
            simp [holding, FileTree.table?_setTable_self inside, found,
              OrderedMap.get?_insert_of_ne other]
          · simp only [holding, FileTree.table?_setTable_of_ne here]
    · rfl

/-! ## Databases that come into use -/

theorem engages_openDatabase (m : Media) (path : String) :
    FileTree.Engages (· = resolve m.files.cwd path) m.files (m.openDatabase path).2.files := by
  have widened := m.files.prepareParent_widens path
  simp only [openDatabase]
  split
  · exact .refl m.files
  · split
    · next prepared =>
      rw [prepared] at widened
      exact .of_eq widened.cwd widened.usages
    · next files prepared =>
      rw [prepared] at widened
      have opens := files.engages_openDatabase path
      rw [show files.cwd = m.files.cwd from widened.cwd] at opens
      exact .trans (.of_eq widened.cwd widened.usages) opens

theorem engages_write {told : Location → Prop} (m : Media) (medium : Medium) (key : String)
    (bytes : ByteArray) : FileTree.Engages told m.files (m.write medium key bytes).2.files := by
  unfold write
  split
  · exact .refl _
  · exact .refl _
  · split <;> exact .refl _
  · split
    · split
      · exact .refl _
      · exact FileTree.engages_setTable _ _ _
    · exact .refl _

end Media

end LiveState
