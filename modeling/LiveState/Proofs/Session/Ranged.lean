import LiveState.Proofs.Session.Course

/-! # What names stand for

In every session the names of media and records stand for something that is there, and kept
subscriptions were made at records that are there.
-/

namespace LiveState

namespace Session

open Course

variable {ρ : Type}

structure World.Ranged (w : World ρ) : Prop where
  names : ∀ name i, w.recordNames.get? name = some i → i < w.records.size
  handles : ∀ name i id, w.subscriptions.get? name = some (.settings i, id) → i < w.records.size
  media : ∀ name medium, w.storages.get? name = some medium → w.media.Has medium

def ranged (ρ : Type) : Course (World ρ) where
  sound := World.Ranged
  leads _ w w' := w.records.size ≤ w'.records.size
  refl _ := Nat.le_refl _
  trans := Nat.le_trans

theorem World.start_ranged (files : FileTree) : (World.start (ρ := ρ) files).Ranged where
  names _ _ h := by cases h
  handles _ _ _ h := by cases h
  media _ _ h := by cases h

theorem loose_ranged : Loose (ranged ρ) where
  cut w _ := Nat.le_refl _
  record e w hw := ⟨⟨hw.names, hw.handles, hw.media⟩, Nat.le_refl _⟩
  media w hw m grows :=
    ⟨⟨hw.names, hw.handles, fun name medium h => (hw.media name medium h).mono grows⟩,
      Nat.le_refl _⟩
  closed name w hw :=
    ⟨⟨hw.names, hw.handles, fun name' medium h =>
      hw.media name' medium (OrderedMap.get?_of_get?_erase h)⟩, Nat.le_refl _⟩
  opened w u opening medium hw ran hu name := by
    have has : u.media.Has medium := openMedium_has hw.media ran
    refine ⟨⟨hu.names, hu.handles, fun name' medium' h => ?_⟩, Nat.le_refl _⟩
    rcases OrderedMap.get?_insert_cases h with ⟨-, rfl⟩ | h
    · exact has
    · exact hu.media name' medium' h
  contexts f w hw := ⟨⟨hw.names, hw.handles, hw.media⟩, Nat.le_refl _⟩
  contextNames f w hw := ⟨⟨hw.names, hw.handles, hw.media⟩, Nat.le_refl _⟩
  modified i f w hw := by
    -- A record that is changed stays where it is.
    have size : (w.records.modify i f).size = w.records.size := Array.size_modify ..
    refine ⟨⟨fun name j h => ?_, fun name j id h => ?_, hw.media⟩, Nat.le_of_eq size.symm⟩
    · exact Nat.lt_of_lt_of_eq (hw.names name j h) size.symm
    · exact Nat.lt_of_lt_of_eq (hw.handles name j id h) size.symm
  added k w hw := by
    have size : w.records.size < (w.records.push k).size := by simp
    refine ⟨⟨fun name j h => ?_, fun name j id h => ?_, hw.media⟩, Nat.le_of_lt size⟩
    · exact Nat.lt_trans (hw.names name j h) size
    · exact Nat.lt_trans (hw.handles name j id h) size
  unnamed name w hw :=
    ⟨⟨fun name' i h => hw.names name' i (OrderedMap.get?_of_get?_erase h),
      hw.handles, hw.media⟩, Nat.le_refl _⟩
  forgotten name w hw :=
    ⟨⟨hw.names, fun name' i id h =>
      hw.handles name' i id (OrderedMap.get?_of_get?_erase h), hw.media⟩, Nat.le_refl _⟩
  enrolled source name id other w hw := by
    refine ⟨⟨hw.names, fun name' i id' h => ?_, hw.media⟩, Nat.le_refl _⟩
    rcases OrderedMap.get?_insert_cases h with ⟨-, same⟩ | h
    · exact absurd (congrArg Prod.fst same) (other i)
    · exact hw.handles name' i id' h
  known w hw := hw.names
  named w hw name i small := by
    refine ⟨⟨fun name' j h => ?_, hw.handles, hw.media⟩, Nat.le_refl _⟩
    rcases OrderedMap.get?_insert_cases h with ⟨-, rfl⟩ | h
    · exact small
    · exact hw.names name' j h
  enrolledRecord w hw name i id small := by
    refine ⟨⟨hw.names, fun name' j id' h => ?_, hw.media⟩, Nat.le_refl _⟩
    rcases OrderedMap.get?_insert_cases h with ⟨-, same⟩ | h
    · cases same
      exact small
    · exact hw.handles name' j id' h
  grows _ _ _ := id

variable [Inhabited ρ] [Settings.Record ρ] [Text.Describe ρ]

/-- After every run names stand for what is there. -/
theorem run_ranged (files : FileTree) (budget : Nat) (steps : List (Step ρ)) :
    ((language ρ).run budget steps (World.start files)).2.Ranged :=
  (loose_ranged.heeds.run (P := fun _ => True) (fun _ _ => trivial) budget (fun _ _ => trivial)
    (World.start_ranged files)).2.1

end Session

end LiveState
