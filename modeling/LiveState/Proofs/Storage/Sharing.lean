import LiveState.Proofs.Storage.Places

/-! # Files with several databases

As long as the databases at the ends of some paths keep apart, each of them holds what was written
to it last, whatever is opened and closed, and a path by which a database was opened leads to it
for good.
-/

namespace LiveState

open Location

namespace FileTree

variable {t t' t'' : FileTree} {l l' j : Location} {path other : String} {paths : List String}
  {content : String → Option ByteArray}

/-! ## New directories -/

/-- From `t` to `t'` nothing has changed but that there are directories where nothing was, on the
    way that was gone. -/
structure Widened (gone : List Location) (t t' : FileTree) : Prop where
  cwd : t'.cwd = t.cwd
  usages : t'.usages = t.usages
  nodes : ∀ j, t'.node? j = t.node? j ∨
    j ∈ gone ∧ t.node? j = none ∧ t'.node? j = some .directory

namespace Widened

variable {gone : List Location}

theorem refl (gone : List Location) (t : FileTree) : Widened gone t t :=
  ⟨rfl, rfl, fun _ => .inl rfl⟩

theorem mono {further : List Location} (h : Widened gone t t') (sub : ∀ j ∈ gone, j ∈ further) :
    Widened further t t' :=
  ⟨h.cwd, h.usages, fun j => (h.nodes j).imp_right fun ⟨here, made⟩ => ⟨sub j here, made⟩⟩

theorem node? (h : Widened gone t t') {n : Node} (there : t.node? j = some n) :
    t'.node? j = some n := by
  rcases h.nodes j with same | ⟨-, missing, -⟩
  · exact same.trans there
  · exact nomatch there.symm.trans missing

theorem node?_of_not_mem (h : Widened gone t t') (off : j ∉ gone) : t'.node? j = t.node? j :=
  (h.nodes j).resolve_right fun ⟨here, _⟩ => off here

theorem hasParent (h : Widened gone t t') (parent : t.HasParent path) : t'.HasParent path := by
  refine parent.mono h.cwd (fun j was => ?_) fun was => ?_
  · exact isDirectory_iff.2 (h.node? (isDirectory_iff.1 was))
  · obtain ⟨n, there⟩ := Option.isSome_iff_exists.1 was
    rw [h.node? there]
    rfl

/-- A database stays where it is, and nothing that it keeps is touched by directories elsewhere. -/
theorem holds (h : Widened gone t t') (off : ∀ e ∈ endings, l.beside e ∉ gone)
    (holds : t.Holds l content) : t'.Holds l content := by
  have journal := h.node?_of_not_mem (off "-journal" (by decide))
  have log := h.node?_of_not_mem (off "-wal" (by decide))
  have index := h.node?_of_not_mem (off "-shm" (by decide))
  rcases h.nodes l with same | ⟨-, missing, made⟩
  · exact holds.congr same journal log index (by rw [h.usages])
  · -- Where there was nothing, there is a directory now, which holds nothing either.
    have absent : ¬ t.HasDatabase l := fun ⟨table, there⟩ => nomatch there.symm.trans missing
    refine ⟨holds.inside, journal.trans holds.journal, ?_, ?_, ?_, fun key => ?_, fun u usage => ?_⟩
    · simpa only [isDirectory, Location.log, log] using holds.log
    · simpa only [isDirectory, Location.index, index] using holds.index
    · simp [made]
    · rw [← holds.content key, held_of_not missing (by simp), held_of_not made (by simp)]
    · exact absurd (holds.used u (h.usages ▸ usage)).2.2 absent

end Widened

theorem makeAlong_widens (t : FileTree) (l : Location) (ps : List String) :
    Widened (passed l ps) t (t.makeAlong l ps).1 := by
  induction ps generalizing t l with
  | nil => exact .refl _ t
  | cons p ps ih =>
    have sub : ∀ j ∈ passed (l.step p) ps, j ∈ passed l (p :: ps) := fun j => List.mem_cons_of_mem _
    simp only [makeAlong]
    split
    · exact .refl _ t
    · split
      · exact (ih t _).mono sub
      · exact .refl _ t
      · next missing =>
        have inside : l.step p ≠ [] := by
          intro root
          rw [root] at missing
          cases missing
        have further := (ih (t.put (l.step p) .directory) (l.step p)).mono sub
        refine ⟨further.cwd, further.usages, fun j => ?_⟩
        by_cases here : j = l.step p
        · subst here
          exact .inr ⟨List.mem_cons_self, missing, further.node? (node?_put_self inside t _)⟩
        · have same := node?_put_of_ne here t .directory
          exact same ▸ further.nodes j

theorem prepareParent_widens (t : FileTree) (path : String) :
    Widened (passed (origin t.cwd path) (directoryParts path)) t (t.prepareParent path).1 := by
  simp only [prepareParent]
  split
  · exact .refl _ t
  · split
    · exact .refl _ t
    · split
      · exact .refl _ t
      · exact makeAlong_widens t _ _

/-! ## Free ways -/

/-- Along the given parts there are directories, or nothing yet. -/
def Free (t : FileTree) : Location → List String → Prop
  | _, [] => True
  | l, p :: ps => fits p = true ∧ (t.isDirectory (l.step p) = true ∨ t.node? (l.step p) = none) ∧
      Free t (l.step p) ps

variable {ps : List String}

theorem Free.mono (h : t.Free l ps)
    (kept : ∀ j ∈ passed l ps, t.isDirectory j = true ∨ t.node? j = none →
      t'.isDirectory j = true ∨ t'.node? j = none) : t'.Free l ps := by
  induction ps generalizing l with
  | nil => trivial
  | cons p ps ih =>
    obtain ⟨fits, here, further⟩ := h
    exact ⟨fits, kept _ List.mem_cons_self here,
      ih further fun j there => kept j (List.mem_cons_of_mem _ there)⟩

theorem Free.of_mem (h : t.Free l ps) (there : j ∈ passed l ps) :
    t.isDirectory j = true ∨ t.node? j = none := by
  induction ps generalizing l with
  | nil => cases there
  | cons p ps ih =>
    obtain ⟨-, here, further⟩ := h
    rcases List.mem_cons.1 there with rfl | there
    · exact here
    · exact ih further there

theorem Paved.of_mem (h : t.Paved l ps) (there : j ∈ passed l ps) : t.isDirectory j = true := by
  induction ps generalizing l with
  | nil => cases there
  | cons p ps ih =>
    obtain ⟨-, here, further⟩ := h
    rcases List.mem_cons.1 there with rfl | there
    · exact here
    · exact ih further there

theorem makeAlong_of_free (h : t.Free l ps) : (t.makeAlong l ps).2 = true := by
  induction ps generalizing t l with
  | nil => rfl
  | cons p ps ih =>
    obtain ⟨fits, here, further⟩ := h
    simp only [makeAlong, fits, Bool.not_true, Bool.false_eq_true, if_false]
    rcases here with directory | missing
    · rw [isDirectory_iff.1 directory]
      exact ih further
    · have inside : l.step p ≠ [] := by
        intro root
        rw [root] at missing
        cases missing
      rw [missing]
      -- The directory that was made is free to go through, too.
      refine ih (further.mono fun j _ before => ?_)
      by_cases same : j = l.step p
      · subst same
        exact .inl (isDirectory_iff.2 (node?_put_self inside t _))
      · rwa [isDirectory, node?_put_of_ne same]

/-- Along a free way the directory of a path is there, or can be made. -/
theorem prepareParent_of_free (legal : hasNul ("/".intercalate (directoryParts path)) = false)
    (short : "/".intercalate (directoryParts path) = "" ∨
      isPassable ("/".intercalate (directoryParts path)) = true)
    (start : t.isDirectory (origin t.cwd path) = true)
    (free : t.Free (origin t.cwd path) (directoryParts path)) :
    ∃ t', t.prepareParent path = (t', none) ∧ t'.isDirectory (directory t.cwd path) = true := by
  have taken : ("/".intercalate (directoryParts path) != "" &&
      !isPassable ("/".intercalate (directoryParts path))) = false := by
    rcases short with none | passable
    · simp [none]
    · simp [passable]
  simp only [prepareParent, legal, taken, Bool.false_eq_true, if_false]
  have onWay := follow_mem (origin t.cwd path) (directoryParts path)
  -- Either something is there already, a directory since the way is free, or it is made.
  split
  · next node found =>
    obtain ⟨e, walked, there⟩ := Option.bind_eq_some_iff.1 found
    obtain rfl := walk?_eq_follow walked
    refine ⟨t, rfl, ?_⟩
    rcases List.mem_cons.1 onWay with here | passed
    · rw [directory, here]
      exact start
    · exact (free.of_mem passed).resolve_right fun missing =>
        Option.some_ne_none node (there.symm.trans missing)
  · have made := makeAlong_of_free free
    have widened := makeAlong_widens t (origin t.cwd path) (directoryParts path)
    rcases result : t.makeAlong (origin t.cwd path) (directoryParts path) with ⟨u, success⟩
    rw [result] at made widened
    obtain rfl : success = true := made
    refine ⟨u, rfl, ?_⟩
    rcases List.mem_cons.1 onWay with here | passed
    · rw [directory, here]
      exact isDirectory_iff.2 (widened.node? (isDirectory_iff.1 start))
    · exact (paved_of_makeAlong result).of_mem passed

theorem used_setTable (l : Location) (table : OrderedMap String Stored)
    (used : (t.usages.get? j).isSome = true) :
    ((t.setTable l table).usages.get? j).isSome = true := by
  by_cases here : j = l
  · subst here
    obtain ⟨u, usage⟩ := Option.isSome_iff_exists.1 used
    have usage : (t.put j (.database table)).usages.get? j = some u := usage
    simp [FileTree.setTable, noteWriting, usage]
  · rw [FileTree.setTable, usages_noteWriting_of_ne here]
    exact used

/-! ## Two places -/

namespace Confined

/-- What is done in one place does not matter in another one. -/
theorem holds (h : Confined l t t') (inside : l ≠ []) (ne : l' ≠ l)
    (apart : ∀ e ∈ endings, l.beside e ≠ l') (apart' : ∀ e ∈ endings, l'.beside e ≠ l)
    (holds : t.Holds l' content) : t'.Holds l' content := by
  have beside (e : String) (he : e ∈ endings) : t'.node? (l'.beside e) = t.node? (l'.beside e) :=
    h.nodes _ (not_owned (apart' e he) fun e' he' same =>
      ne (eq_of_beside he' he inside holds.inside same).symm)
  exact holds.congr (h.nodes _ (not_owned ne apart)) (beside "-journal" (by decide))
    (beside "-wal" (by decide)) (beside "-shm" (by decide)) (h.usages _ ne)

theorem hasParent (h : Confined l t t') (apart : ∀ e ∈ endings, l.beside e ∉ way t.cwd path)
    (parent : t.HasParent path) : t'.HasParent path := by
  refine parent.mono h.cwd (fun j was => (h.directories j).trans was) fun was => ?_
  exact h.isSome (fun e he same => apart e he (same ▸ directory_mem_way t.cwd path)) was

theorem hasDatabase (h : Confined l t t') (apart : ∀ e ∈ endings, l.beside e ≠ j)
    (database : t.HasDatabase j) : t'.HasDatabase j := by
  by_cases here : j = l
  · subst here
    exact h.database database
  · obtain ⟨table, there⟩ := database
    exact ⟨table, (h.nodes j (not_owned here apart)).trans there⟩

end Confined

/-! ## Several places -/

/-- A path by which the database at its end can be opened. -/
structure Reachable (t : FileTree) (path : String) : Prop where
  parent : t.HasParent path
  addressable : isAddressable t.cwd path = true
  database : t.HasDatabase (resolve t.cwd path)

/-- Nothing is in the way of the database at the end of a path, even if it has to be made.  The
    directories on the way are there, or there is room for them: no path leads to a file there, and
    the way of no path leads through this file. -/
structure Clear (t : FileTree) (paths : List String) (path : String) : Prop where
  legal : hasNul ("/".intercalate (directoryParts path)) = false
  short : "/".intercalate (directoryParts path) = "" ∨
    isPassable ("/".intercalate (directoryParts path)) = true
  start : t.isDirectory (origin t.cwd path) = true
  free : t.Free (origin t.cwd path) (directoryParts path)
  inside : (resolve t.cwd path).dropLast = directory t.cwd path
  addressable : isAddressable t.cwd path = true
  room : (resolve t.cwd path).hasRoom = true
  takes : t.Takes (resolve t.cwd path)
  aside : ∀ other ∈ paths, resolve t.cwd other ∉ passed (origin t.cwd path) (directoryParts path) ∧
    resolve t.cwd path ∉ passed (origin t.cwd other) (directoryParts other)

theorem Clear.prepareParent (h : t.Clear paths path) :
    ∃ t', t.prepareParent path = (t', none) ∧ t'.isDirectory (directory t.cwd path) = true :=
  prepareParent_of_free h.legal h.short h.start h.free

/-- From `t` to `t'` what could be opened by one of the paths can be opened still. -/
structure Onward (paths : List String) (t t' : FileTree) : Prop where
  cwd : t'.cwd = t.cwd
  reachable : ∀ path ∈ paths, t.Reachable path → t'.Reachable path
  clear : ∀ path ∈ paths, t.Clear paths path → t'.Clear paths path

theorem Onward.refl (paths : List String) (t : FileTree) : Onward paths t t :=
  ⟨rfl, fun _ _ => id, fun _ _ => id⟩

theorem Onward.trans (h : Onward paths t t') (k : Onward paths t' t'') : Onward paths t t'' where
  cwd := k.cwd.trans h.cwd
  reachable path member := k.reachable path member ∘ h.reachable path member
  clear path member := k.clear path member ∘ h.clear path member

/-- A path stays clear if directories stay, and what is on its way and at its end stays clear. -/
theorem Clear.mono (h : t.Clear paths path) (cwd : t'.cwd = t.cwd)
    (directories : ∀ j, t.isDirectory j = true → t'.isDirectory j = true)
    (free : ∀ j ∈ passed (origin t.cwd path) (directoryParts path), t.node? j = none →
      t'.isDirectory j = true ∨ t'.node? j = none)
    (takes : t'.Takes (resolve t.cwd path)) : t'.Clear paths path := by
  have free := h.free.mono fun j there before =>
    before.elim (fun was => .inl (directories j was)) (free j there)
  obtain ⟨legal, short, start, -, inside, addressable, room, -, aside⟩ := h
  rw [← cwd] at start free inside addressable room takes aside
  exact ⟨legal, short, directories _ start, free, inside, addressable, room, takes, aside⟩

/-- The databases at the ends of the paths keep apart, and hold what is stored for their locations.
    Nobody uses any other database. -/
structure Keeps (t : FileTree) (paths : List String)
    (stored : Location → String → Option ByteArray) : Prop where
  apart : Apart t.cwd paths
  holds : ∀ path ∈ paths, t.Holds (resolve t.cwd path) (stored (resolve t.cwd path))
  users : ∀ l u, t.usages.get? l = some u → ∃ path ∈ paths, resolve t.cwd path = l

namespace Keeps

variable {stored stored' : Location → String → Option ByteArray}

theorem ne_of_apart (h : t.Keeps paths stored) (member : path ∈ paths) (member' : other ∈ paths)
    {e : String} (he : e ∈ endings) : (resolve t.cwd path).beside e ≠ resolve t.cwd other :=
  fun same => h.apart path member e he other member' (same ▸ resolve_mem_way t.cwd other)

/-- What is done in one place keeps all of them. -/
theorem confined (h : t.Keeps paths stored) (member : path ∈ paths)
    (confined : Confined (resolve t.cwd path) t t')
    (holds : t'.Holds (resolve t.cwd path) (stored' (resolve t.cwd path)))
    (same : ∀ j, j ≠ resolve t.cwd path → stored' j = stored j) :
    t'.Keeps paths stored' ∧ Onward paths t t' := by
  refine ⟨⟨?_, fun other member' => ?_, fun l u usage => ?_⟩, confined.cwd,
    fun other member' r => ?_, fun other member' clear => ?_⟩
  · rw [confined.cwd]
    exact h.apart
  · rw [confined.cwd]
    by_cases here : resolve t.cwd other = resolve t.cwd path
    · rw [here]
      exact holds
    · rw [same _ here]
      exact confined.holds (h.holds path member).inside here
        (fun e he => h.ne_of_apart member member' he) (fun e he => h.ne_of_apart member' member he)
        (h.holds other member')
  · rw [confined.cwd]
    by_cases here : l = resolve t.cwd path
    · exact ⟨path, member, here.symm⟩
    · exact h.users l u (confined.usages l here ▸ usage)
  · refine ⟨confined.hasParent (fun e he => h.apart path member e he other member') r.parent,
      ?_, ?_⟩
    · rw [confined.cwd]
      exact r.addressable
    · rw [confined.cwd]
      exact confined.hasDatabase (fun e he => h.ne_of_apart member member' he) r.database
  · refine clear.mono confined.cwd (fun j was => (confined.directories j).trans was)
      (fun j there missing => .inr ?_) ?_
    · -- What is on the way of a path is neither a file nor beside one.
      have ne : j ≠ resolve t.cwd path := fun same => (clear.aside path member).1 (same ▸ there)
      refine (confined.nodes j (not_owned ne fun e he same => ?_)).trans missing
      exact h.apart path member e he other member' (same ▸ mem_way_of_passed there)
    · by_cases here : resolve t.cwd other = resolve t.cwd path
      · rw [here]
        exact confined.takes (here ▸ clear.takes)
      · exact clear.takes.congr (confined.nodes _ (not_owned here fun e he =>
          h.ne_of_apart member member' he))

/-- New directories on the way of one of the paths keep all databases. -/
theorem widened (h : t.Keeps paths stored) (member : path ∈ paths)
    (widened : Widened (passed (origin t.cwd path) (directoryParts path)) t t') :
    t'.Keeps paths stored ∧ Onward paths t t' := by
  refine ⟨⟨?_, fun other member' => ?_, fun l u usage => ?_⟩, widened.cwd,
    fun other member' r => ?_, fun other member' clear => ?_⟩
  · rw [widened.cwd]
    exact h.apart
  · rw [widened.cwd]
    exact widened.holds
      (fun e he there => h.apart other member' e he path member (mem_way_of_passed there))
      (h.holds other member')
  · rw [widened.cwd]
    exact h.users l u (widened.usages ▸ usage)
  · obtain ⟨table, there⟩ := r.database
    refine ⟨widened.hasParent r.parent, ?_, ?_⟩
    · rw [widened.cwd]
      exact r.addressable
    · rw [widened.cwd]
      exact ⟨table, widened.node? there⟩
  · refine clear.mono widened.cwd (fun j was => isDirectory_iff.2
      (widened.node? (isDirectory_iff.1 was))) (fun j _ missing => ?_) ?_
    · rcases widened.nodes j with same | ⟨-, -, made⟩
      · exact .inr (same.trans missing)
      · exact .inl (isDirectory_iff.2 made)
    · exact clear.takes.congr (widened.node?_of_not_mem (clear.aside path member).2)

/-- What may come of opening the database at the end of one of the paths. -/
structure Opens (path : String) (paths : List String)
    (stored : Location → String → Option ByteArray) (t : FileTree)
    (result : FileTree × Option Location) : Prop where
  keeps : result.1.Keeps paths stored
  onward : Onward paths t result.1
  remains : ∀ l, (t.usages.get? l).isSome = true → (result.1.usages.get? l).isSome = true
  opened : ∀ l, result.2 = some l →
    l = resolve t.cwd path ∧ (result.1.usages.get? l).isSome = true ∧ result.1.Reachable path
  succeeds : t.Reachable path ∨
    t.Clear paths path ∧ t.isDirectory (directory t.cwd path) = true → result.2.isSome = true

theorem openDatabase (h : t.Keeps paths stored) (member : path ∈ paths)
    (parent : t.HasParent path) : Opens path paths stored t (t.openDatabase path) := by
  have opens : FileTree.Opens (resolve t.cwd path) (stored (resolve t.cwd path)) t
      (t.openDatabase path) := (h.holds path member).openDatabase rfl
  obtain ⟨keeps, onward⟩ := h.confined member opens.confined opens.holds fun _ _ => rfl
  refine ⟨keeps, onward, fun l used => ?_, fun l opened => ?_, ?_⟩
  · by_cases here : l = resolve t.cwd path
    · subst here
      exact opens.remains used
    · rw [opens.confined.usages l here]
      exact used
  · obtain ⟨rfl, used, database⟩ := opens.opened l opened
    have addressable : isAddressable t.cwd path = true := by
      simp only [FileTree.openDatabase] at opened
      split at opened
      · cases opened
      · next addressable => simpa using addressable
    refine ⟨rfl, used, opens.confined.hasParent (fun e he => h.apart path member e he path member)
      parent, ?_, ?_⟩
    · rw [onward.cwd]
      exact addressable
    · rw [onward.cwd]
      exact database
  · rintro (r | ⟨clear, parent⟩)
    · rw [(h.holds path member).openDatabase_of_hasDatabase rfl r.addressable r.database]
      rfl
    · rw [(h.holds path member).openDatabase_of_takes rfl clear.addressable clear.room
        (clear.inside ▸ parent) clear.takes]
      rfl

theorem closeDatabase (h : t.Keeps paths stored) (l : Location) :
    (t.closeDatabase l).Keeps paths stored ∧ Onward paths t (t.closeDatabase l) ∧
      ∀ j, j ≠ l → (t.closeDatabase l).usages.get? j = t.usages.get? j := by
  cases usage : t.usages.get? l with
  | none =>
    have same : t.closeDatabase l = t := by simp only [FileTree.closeDatabase, usage]
    rw [same]
    exact ⟨h, .refl paths t, fun _ _ => rfl⟩
  | some u =>
    obtain ⟨path, member, rfl⟩ := h.users l u usage
    obtain ⟨confined, holds⟩ := (h.holds path member).closeDatabase
    obtain ⟨keeps, onward⟩ := h.confined member confined holds fun _ _ => rfl
    exact ⟨keeps, onward, confined.usages⟩

theorem closeUnneeded (h : t.Keeps paths stored) (isNeeded : Location → Bool) :
    (t.closeUnneeded isNeeded).Keeps paths stored ∧ Onward paths t (t.closeUnneeded isNeeded) ∧
      ∀ j, isNeeded j = true → (t.closeUnneeded isNeeded).usages.get? j = t.usages.get? j := by
  have closes (ls : List Location) (unneeded : ∀ l ∈ ls, isNeeded l = false) :
      (ls.foldl FileTree.closeDatabase t).Keeps paths stored ∧
        Onward paths t (ls.foldl FileTree.closeDatabase t) ∧
        ∀ j, isNeeded j = true → (ls.foldl FileTree.closeDatabase t).usages.get? j =
          t.usages.get? j := by
    induction ls generalizing t with
    | nil => exact ⟨h, .refl paths t, fun _ _ => rfl⟩
    | cons l ls ih =>
      obtain ⟨keeps, onward, usages⟩ := h.closeDatabase l
      obtain ⟨keeps', onward', usages'⟩ :=
        ih keeps fun l' there => unneeded l' (List.mem_cons_of_mem l there)
      refine ⟨keeps', onward.trans onward', fun j needed => (usages' j needed).trans (usages j ?_)⟩
      rintro rfl
      exact nomatch needed.symm.trans (unneeded j List.mem_cons_self)
  exact closes _ fun l there => by simpa using (List.mem_filter.1 there).2

/-- What is written to a database in use is stored there, and nowhere else. -/
theorem setTable (h : t.Keeps paths stored) (member : path ∈ paths)
    (used : (t.usages.get? (resolve t.cwd path)).isSome = true)
    {table : OrderedMap String Stored}
    (holds : ∀ key, table.get? key = (stored' (resolve t.cwd path) key).map .bytes)
    (same : ∀ j, j ≠ resolve t.cwd path → stored' j = stored j) :
    (t.setTable (resolve t.cwd path) table).Keeps paths stored' ∧
      Onward paths t (t.setTable (resolve t.cwd path) table) := by
  obtain ⟨u, usage⟩ := Option.isSome_iff_exists.1 used
  obtain ⟨confined, written⟩ :=
    (h.holds path member).setTable ((h.holds path member).used u usage).2.2 holds
  exact h.confined member confined written same

end Keeps

/-! ## Ordinary files -/

/-- The bytes under a key of the database at a location. -/
def bytesAt (t : FileTree) (l : Location) (key : String) : Option ByteArray :=
  match t.held l key with
  | some (.bytes b) => some b
  | _ => none

/-- The paths lead to files that nobody uses yet, and what databases there are hold bytes only.  As
    a database takes what is beside it for its own, nothing is there, and none of the files or
    directories that the paths lead to will ever be. -/
structure Ordinary (t : FileTree) (paths : List String) : Prop where
  unused : t.usages.entries = []
  apart : Apart t.cwd paths
  alone : ∀ path ∈ paths, ∀ e ∈ endings, t.node? ((resolve t.cwd path).beside e) = none
  own : ∀ path ∈ paths, t.node? (resolve t.cwd path) ≠ some .foreignDatabase
  plain : ∀ path ∈ paths, ∀ key text, t.held (resolve t.cwd path) key ≠ some (.text text)

theorem Ordinary.keeps (h : t.Ordinary paths) : t.Keeps paths t.bytesAt := by
  have unused (l : Location) (u : Usage) : t.usages.get? l ≠ some u := by
    simp [OrderedMap.get?, h.unused]
  refine ⟨h.apart, fun path member => ?_, fun l u usage => absurd usage (unused l u)⟩
  have alone := h.alone path member
  refine ⟨?_, alone _ (by decide), isDirectory_of_none (alone _ (by decide)),
    isDirectory_of_none (alone _ (by decide)), h.own path member, fun key => ?_,
    fun u usage => absurd usage (unused _ u)⟩
  · -- What is beside the root is the root.
    intro root
    have none := alone "-wal" (by decide)
    rw [root] at none
    cases none
  · cases there : t.held (resolve t.cwd path) key with
    | none => simp [bytesAt, there]
    | some stored =>
      cases stored with
      | bytes b => simp [bytesAt, there]
      | text text => exact absurd there (h.plain path member key text)

end FileTree

/-! ## Opening by path -/

namespace Media

/-- What may come of opening a medium by one of the paths. -/
structure Opens (path : String) (paths : List String)
    (stored : Location → String → Option ByteArray) (m : Media)
    (result : Except StorageError Medium × Media) : Prop where
  rest : result.2 = { m with files := result.2.files }
  keeps : result.2.files.Keeps paths stored
  onward : FileTree.Onward paths m.files result.2.files
  remains : ∀ l, (m.files.usages.get? l).isSome = true →
    (result.2.files.usages.get? l).isSome = true
  opened : ∀ medium, result.1 = .ok medium →
    medium = .database (resolve m.files.cwd path) ∧
      (result.2.files.usages.get? (resolve m.files.cwd path)).isSome = true ∧
      result.2.files.Reachable path
  succeeds : m.files.Reachable path ∨ m.files.Clear paths path →
    ∃ medium, result.1 = .ok medium

theorem openDatabase_opens {m : Media} {path : String} {paths : List String}
    {stored : Location → String → Option ByteArray} (h : m.files.Keeps paths stored)
    (member : path ∈ paths) (ordinary : isPrivateName path = false) :
    Opens path paths stored m (m.openDatabase path) := by
  have widened := m.files.prepareParent_widens path
  simp only [openDatabase, ordinary, Bool.false_eq_true, if_false]
  rcases prepared : m.files.prepareParent path with ⟨t, _ | failure⟩
  · rw [prepared] at widened
    obtain ⟨keeps, onward⟩ := h.widened member widened
    obtain ⟨parent, -, usages⟩ := FileTree.hasParent_of_prepareParent prepared
    have opens := keeps.openDatabase member parent
    refine ⟨rfl, opens.keeps, onward.trans opens.onward, fun l used => ?_, fun medium opened => ?_,
      fun r => ?_⟩
    · exact opens.remains l (usages ▸ used)
    · cases found : (t.openDatabase path).2 with
      | none => simp [found] at opened
      | some l =>
        obtain ⟨rfl, used, reachable⟩ := opens.opened l found
        have same : Medium.database (resolve t.cwd path) = medium := by simpa [found] using opened
        rw [← onward.cwd]
        exact ⟨same.symm, used, reachable⟩
    · have there : t.Reachable path ∨
          t.Clear paths path ∧ t.isDirectory (directory t.cwd path) = true :=
        r.imp (onward.reachable path member) fun clear => by
          obtain ⟨u, made, directory⟩ := clear.prepareParent
          rw [prepared] at made
          cases made
          exact ⟨onward.clear path member clear, onward.cwd ▸ directory⟩
      obtain ⟨l, found⟩ := Option.isSome_iff_exists.1 (opens.succeeds there)
      exact ⟨.database l, by simp [show (t.openDatabase path).2 = some l from found]⟩
  · -- The directory could not be made, so that it was not there.
    rw [prepared] at widened
    obtain ⟨keeps, onward⟩ := h.widened member widened
    refine ⟨rfl, keeps, onward, fun l used => ?_, by simp, fun r => ?_⟩
    · exact widened.usages.symm ▸ used
    · rcases r with r | clear
      · rw [r.parent.prepareParent] at prepared
        cases prepared
      · obtain ⟨u, made, -⟩ := clear.prepareParent
        rw [prepared] at made
        cases made

end Media

end LiveState
