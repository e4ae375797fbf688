import LiveState.Storage.FileTree

/-! # The directories on the way to a file

Where a path leads to and where its directory is, and that directories that have been made need not
be made again.
-/

namespace LiveState

namespace Location

/-! ## Files and their directories -/

theorem follow_append (l : Location) (ps qs : List String) :
    l.follow (ps ++ qs) = (l.follow ps).follow qs :=
  List.foldl_append

theorem follow_of_isIdle (l : Location) {ps : List String} (h : ∀ p ∈ ps, isIdle p = true) :
    l.follow ps = l := by
  induction ps with
  | nil => rfl
  | cons p ps ih =>
    have here : l.step p = l := step_of_isIdle (h p List.mem_cons_self) l
    show (l.step p).follow ps = l
    rw [here]
    exact ih fun q hq => h q (List.mem_cons_of_mem p hq)

/-- Idle parts at the end do not matter. -/
theorem follow_trimEnd (l : Location) (ps : List String) : l.follow (trimEnd ps) = l.follow ps := by
  have split : trimEnd ps ++ (ps.reverse.takeWhile isIdle).reverse = ps := by
    rw [trimEnd, ← List.reverse_append, List.takeWhile_append_dropWhile, List.reverse_reverse]
  have idle : ∀ p ∈ (ps.reverse.takeWhile isIdle).reverse, isIdle p = true := by
    intro p hp
    exact List.all_eq_true.1 List.all_takeWhile p (List.mem_reverse.1 hp)
  calc l.follow (trimEnd ps)
    _ = (l.follow (trimEnd ps)).follow (ps.reverse.takeWhile isIdle).reverse :=
        (follow_of_isIdle _ idle).symm
    _ = l.follow ps := by rw [← follow_append, split]

def directory (cwd : Location) (path : String) : Location :=
  (origin cwd path).follow (directoryParts path)

/-- A path leads to its directory, to where that stands, or to something in it. -/
theorem resolve_cases (cwd : Location) (path : String) :
    resolve cwd path = directory cwd path ∨ resolve cwd path = (directory cwd path).dropLast ∨
      ∃ name, resolve cwd path = directory cwd path ++ [name] := by
  have trimmed : resolve cwd path = (origin cwd path).follow (trimEnd (written path)) := by
    rw [follow_trimEnd]
    exact follow_filter _ _
  -- The directory is where all parts but the last one lead to.
  rcases List.eq_nil_or_concat (trimEnd (written path)) with none | ⟨ps, p, parts⟩
  · left
    rw [trimmed, directory, directoryParts, none]
    rfl
  · rw [List.concat_eq_append] at parts
    have last : resolve cwd path = (directory cwd path).step p := by
      rw [trimmed, directory, directoryParts, parts, List.dropLast_concat, follow_trimEnd,
        follow_append]
      rfl
    rw [last, step]
    split
    · exact .inl rfl
    split
    · exact .inr (.inl rfl)
    · exact .inr (.inr ⟨p, rfl⟩)

theorem length_beside {l : Location} (h : l ≠ []) (ending : String) :
    (l.beside ending).length = l.length := by
  rw [beside, List.getLast?_eq_some_getLast h]
  simp [Nat.sub_add_cancel (List.length_pos_iff.2 h)]

/-- The directory of a file is not beside the file. -/
theorem directory_ne_beside {cwd : Location} {path ending : String}
    (h : resolve cwd path ≠ []) (he : ending ≠ "") :
    directory cwd path ≠ (resolve cwd path).beside ending := by
  intro same
  -- A file beside another one is as deep, and no deeper path is equal to it.
  have length := congrArg List.length same
  rw [length_beside h] at length
  rcases resolve_cases cwd path with here | above | ⟨name, inside⟩
  · exact beside_ne h he (same.symm.trans here.symm)
  · rw [above, List.length_dropLast] at length
    rw [above] at h
    have some : directory cwd path ≠ [] := fun none => h (by rw [none]; rfl)
    have positive := List.length_pos_iff.2 some
    omega
  · rw [inside, List.length_append, List.length_singleton] at length
    omega

theorem ne_journal {l : Location} (h : l ≠ []) : l ≠ l.journal := (beside_ne h (by decide)).symm

theorem ne_log {l : Location} (h : l ≠ []) : l ≠ l.log := (beside_ne h (by decide)).symm

theorem ne_index {l : Location} (h : l ≠ []) : l ≠ l.index := (beside_ne h (by decide)).symm

end Location

namespace FileTree

open Location

variable {t t' : FileTree} {l e : Location} {ps : List String} {path : String}

/-! ## Making directories -/

theorem isDirectory_iff : t.isDirectory l = true ↔ t.node? l = some .directory := by
  unfold isDirectory
  split <;> simp_all

theorem walk?_eq_follow (h : t.walk? l ps = some e) : e = l.follow ps := by
  induction ps generalizing l with
  | nil => exact (Option.some.inj h).symm
  | cons p ps ih =>
    simp only [walk?] at h
    split at h
    · exact ih h
    · cases h

theorem walk?_mono (kept : ∀ j, t.isDirectory j = true → t'.isDirectory j = true)
    (h : t.walk? l ps = some e) : t'.walk? l ps = some e := by
  induction ps generalizing l with
  | nil => exact h
  | cons p ps ih =>
    simp only [walk?, Bool.and_eq_true] at h ⊢
    split at h
    · next passable =>
      rw [if_pos ⟨kept l passable.1, passable.2⟩]
      exact ih h
    · cases h

/-- All steps along the parts lead to directories. -/
def Paved (t : FileTree) : Location → List String → Prop
  | _, [] => True
  | l, p :: ps => fits p = true ∧ t.isDirectory (l.step p) = true ∧ Paved t (l.step p) ps

theorem Paved.mono (kept : ∀ j, t.isDirectory j = true → t'.isDirectory j = true)
    (h : t.Paved l ps) : t'.Paved l ps := by
  induction ps generalizing l with
  | nil => trivial
  | cons p ps ih =>
    obtain ⟨fits, directory, rest⟩ := h
    exact ⟨fits, kept _ directory, ih rest⟩

theorem makeAlong_of_paved (h : t.Paved l ps) : t.makeAlong l ps = (t, true) := by
  induction ps generalizing l with
  | nil => rfl
  | cons p ps ih =>
    obtain ⟨fits, directory, rest⟩ := h
    simp only [makeAlong, fits, isDirectory_iff.1 directory]
    exact ih rest

theorem paved_of_makeAlong (made : t.makeAlong l ps = (t', true)) : t'.Paved l ps := by
  induction ps generalizing t l with
  | nil => trivial
  | cons p ps ih =>
    -- What is made further on takes no directory away.
    have there {u : FileTree} (step : u.node? (l.step p) = some .directory)
        (rest : u.makeAlong (l.step p) ps = (t', true)) : t'.isDirectory (l.step p) = true := by
      have still := node?_makeAlong step (l.step p) ps
      rw [rest] at still
      exact isDirectory_iff.2 still
    simp only [makeAlong] at made
    split at made
    · cases made
    · next fits =>
      split at made
      · next step => exact ⟨by simpa using fits, there step made, ih made⟩
      · cases made
      · next missing =>
        have inside : l.step p ≠ [] := by
          intro root
          rw [root] at missing
          cases missing
        exact ⟨by simpa using fits, there (node?_put_self inside t .directory) made, ih made⟩

theorem cwd_makeAlong (t : FileTree) (l : Location) (ps : List String) :
    (t.makeAlong l ps).1.cwd = t.cwd := by
  induction ps generalizing t l with
  | nil => rfl
  | cons p ps ih =>
    simp only [makeAlong]
    split
    · rfl
    · split
      · exact ih ..
      · rfl
      · exact ih ..

theorem usages_makeAlong (t : FileTree) (l : Location) (ps : List String) :
    (t.makeAlong l ps).1.usages = t.usages := by
  induction ps generalizing t l with
  | nil => rfl
  | cons p ps ih =>
    simp only [makeAlong]
    split
    · rfl
    · split
      · exact ih ..
      · rfl
      · exact ih ..

/-! ## The directory of a path -/

/-- The directory of a path need not be made: it is there, or the way to it leads through
    directories only. -/
structure HasParent (t : FileTree) (path : String) : Prop where
  legal : hasNul ("/".intercalate (directoryParts path)) = false
  short : "/".intercalate (directoryParts path) = "" ∨
    isPassable ("/".intercalate (directoryParts path)) = true
  reached : (t.walk? (origin t.cwd path) (directoryParts path) = some (directory t.cwd path) ∧
      (t.node? (directory t.cwd path)).isSome = true) ∨
    t.Paved (origin t.cwd path) (directoryParts path)

theorem HasParent.prepareParent (h : t.HasParent path) : t.prepareParent path = (t, none) := by
  have taken : ("/".intercalate (directoryParts path) != "" &&
      !isPassable ("/".intercalate (directoryParts path))) = false := by
    rcases h.short with none | passable
    · simp [none]
    · simp [passable]
  simp only [FileTree.prepareParent, h.legal, taken, Bool.false_eq_true, if_false]
  split
  · rfl
  · next missing =>
    -- Either the directory is found, or making it changes nothing.
    rcases h.reached with ⟨walked, node⟩ | paved
    · rw [walked, Option.bind_some] at missing
      simp [missing] at node
    · simp [makeAlong_of_paved paved]

/-- After the directory of a path has been made, it is there. -/
theorem hasParent_of_prepareParent (made : t.prepareParent path = (t', none)) :
    t'.HasParent path ∧ t'.cwd = t.cwd ∧ t'.usages = t.usages := by
  simp only [FileTree.prepareParent] at made
  split at made
  · cases made
  · next legal =>
    split at made
    · cases made
    · next taken =>
      have short : "/".intercalate (directoryParts path) = "" ∨
          isPassable ("/".intercalate (directoryParts path)) = true := by
        simpa [Classical.or_iff_not_imp_left] using taken
      split at made
      · next found =>
        cases made
        obtain ⟨e, walked, node⟩ := Option.bind_eq_some_iff.1 found
        obtain rfl := walk?_eq_follow walked
        exact ⟨⟨by simpa using legal, short, .inl ⟨walked, by simp [directory, node]⟩⟩, rfl, rfl⟩
      · -- The way had to be made.
        have cwd := cwd_makeAlong t (origin t.cwd path) (directoryParts path)
        have usages := usages_makeAlong t (origin t.cwd path) (directoryParts path)
        rcases result : t.makeAlong (origin t.cwd path) (directoryParts path) with ⟨u, _ | _⟩
        · rw [result] at made
          cases made
        · rw [result] at made cwd usages
          cases made
          refine ⟨⟨by simpa using legal, short, .inr ?_⟩, cwd, usages⟩
          rw [cwd]
          exact paved_of_makeAlong result

theorem HasParent.mono (h : t.HasParent path) (cwd : t'.cwd = t.cwd)
    (kept : ∀ j, t.isDirectory j = true → t'.isDirectory j = true)
    (there : (t.node? (directory t.cwd path)).isSome = true →
      (t'.node? (directory t.cwd path)).isSome = true) : t'.HasParent path := by
  refine ⟨h.legal, h.short, ?_⟩
  rw [cwd]
  rcases h.reached with ⟨walked, node⟩ | paved
  · exact .inl ⟨walk?_mono kept walked, there node⟩
  · exact .inr (paved.mono kept)

end FileTree

end LiveState
