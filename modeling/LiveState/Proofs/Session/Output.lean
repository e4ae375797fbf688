import LiveState.Proofs.Command
import LiveState.Session.Language

/-! # Commands and the writers they write to

How many bytes a writer takes makes no difference to what a command does in a session.
-/

namespace LiveState.Session

variable {ρ : Type} [Inhabited ρ] [Settings.Record ρ] [Text.Describe ρ]
  (nested : Nested (World ρ) (Step ρ)) (name : String) (command : Command)

/-- A command is executed, and then its text is cut off where the writer takes no more. -/
theorem perform_execute (room : Option Nat) :
    perform nested (.execute name command room) =
      withContext name fun i => do
        let access ← Act.view (·.contextAccess i)
        let output ← command.execute (contextPanelsSite i) (contextSettingsSite access i) nested
        return .output (output.through room).1 (output.through room).2 := by
  simp only [perform, Command.write_through, bind_map_left]

variable {nested name command} in
theorem perform_execute_of_named {w : World ρ} {i : Nat}
    (named : w.contextNames.get? name = some i) (room : Option Nat) :
    (perform nested (.execute name command room)).perform w =
      ((fun o => Reply.output (o.through room).1 (o.through room).2) <$>
        command.execute (contextPanelsSite i) (contextSettingsSite (w.contextAccess i) i)
          nested).perform w := by
  simp only [perform_execute, withContext, Act.perform_bind, Act.perform_view, named,
    map_eq_pure_bind]

variable {name command} in
theorem exec_execute_of_named {w : World ρ} {i : Nat} (named : w.contextNames.get? name = some i)
    (room : Option Nat) (budget : Nat) :
    ((language ρ).exec (budget + 1) (.execute name command room)).perform w =
      ((fun o => Reply.output (o.through room).1 (o.through room).2) <$>
        command.execute (contextPanelsSite i) (contextSettingsSite (w.contextAccess i) i)
          ((language ρ).nested ((language ρ).exec budget))).perform
        (w.record (.began (.execute name command room))) :=
  perform_execute_of_named (w := w.record (.began (.execute name command room))) named room

/-- A failing writer never changes what a command does: it leaves the same world, journal included,
    as a writer that takes everything.  The failing writer has taken the first bytes of the whole
    output, and the answer is the same if that was all of it. -/
theorem execute_limited (n : Nat) (w : World ρ) :
    ((perform nested (.execute name command (some n))).perform w).2 =
        ((perform nested (.execute name command none)).perform w).2 ∧
      match ((perform nested (.execute name command none)).perform w).1 with
      | .ok (.output full failure) =>
        ∃ taken rest, full = taken ++ rest ∧ taken.size = min n full.size ∧
          ((perform nested (.execute name command (some n))).perform w).1 =
            .ok (.output taken (if full.size ≤ n then failure else some .writerFull))
      | ended => ((perform nested (.execute name command (some n))).perform w).1 = ended := by
  simp only [perform_execute, withContext, Act.perform_bind, Act.perform_view]
  cases w.contextNames.get? name with
  | none => exact ⟨rfl, rfl⟩
  | some i =>
    simp only [Act.perform_bind, Act.perform_view]
    generalize command.execute _ _ nested = done
    rcases done.perform w with ⟨e | o, w'⟩
    · exact ⟨rfl, rfl⟩
    · refine ⟨rfl, o.text.toUTF8.extract 0 n, o.text.toUTF8.extract n o.text.toUTF8.size,
        ?_, ?_, ?_⟩
      · rw [ByteArray.extract_append_extract, Nat.zero_min, ByteArray.extract_zero_max_size]
        rfl
      · rw [ByteArray.size_extract, Nat.sub_zero]
        rfl
      · simp only [Act.perform_pure, Command.Output.through_some]
        rfl

end LiveState.Session
