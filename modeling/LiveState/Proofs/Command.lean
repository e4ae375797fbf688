import LiveState.Command
import LiveState.Proofs.Course

/-! # Commands as what they do and what they show

A command has all its effects before it writes its first byte.  So it comes to an action that does
something and then knows its whole text, and a writer that takes no more bytes at some point only
cuts that text off.
-/

namespace LiveState.Command

/-! ## Writers -/

namespace Writer

variable {a b : ByteArray} {writer : Writer}

theorem take_take : (writer.take a).take b = writer.take (a ++ b) := by
  rcases writer with ⟨_ | n, taken⟩
  · simp [take, ByteArray.append_assoc]
  · simp [take, ByteArray.append_assoc, ByteArray.extract_append, ByteArray.size_append,
      Nat.sub_sub]

theorem fits_append : writer.fits (a ++ b) = (writer.fits a && (writer.take a).fits b) := by
  rcases writer with ⟨_ | n, taken⟩
  · rfl
  · simp only [fits, take, Option.all_some, ByteArray.size_append, ← Bool.decide_and]
    congr 1
    simp
    omega

theorem take_of_not_fits (h : writer.fits a = false) : (writer.take a).take b = writer.take a := by
  rcases writer with ⟨_ | n, taken⟩
  · simp [fits] at h
  · simp [fits] at h
    have full : n - a.size = 0 := by omega
    simp [take, full]

end Writer

/-! ## Printing -/

variable {W σ α β : Type}

namespace Printing

/-- Run a program that writes, with a writer in a world. -/
def perform (m : Printing W α) (writer : Writer) (w : W) :
    Except Interrupt (Except Failure α × Writer) × W :=
  (m.run.run writer).perform w

theorem ext {m m' : Printing W α} (h : ∀ writer w, m.perform writer w = m'.perform writer w) :
    m = m' :=
  funext fun writer => funext fun w => h writer w

theorem perform_pure (a : α) (writer : Writer) (w : W) :
    (pure a : Printing W α).perform writer w = (.ok (.ok a, writer), w) := rfl

theorem perform_lift (m : Act W α) (writer : Writer) (w : W) :
    (liftM m : Printing W α).perform writer w =
      match m.perform w with
      | (.ok a, w') => (.ok (.ok a, writer), w')
      | (.error i, w') => (.error i, w') := by
  have lifted : (liftM m : Printing W α).perform writer w =
      ((m >>= fun a => pure (a, writer)) >>= fun (a, writer) => pure (.ok a, writer)).perform w :=
    rfl
  rw [lifted, Act.perform_bind, Act.perform_bind]
  rcases m.perform w with ⟨_ | _, _⟩ <;> rfl

theorem lift_pure (a : α) : (liftM (pure a : Act W α) : Printing W α) = pure a := rfl

theorem perform_bind (m : Printing W α) (f : α → Printing W β) (writer : Writer) (w : W) :
    (m >>= f).perform writer w =
      match m.perform writer w with
      | (.ok (.ok a, writer'), w') => (f a).perform writer' w'
      | (.ok (.error e, writer'), w') => (.ok (.error e, writer'), w')
      | (.error i, w') => (.error i, w') := by
  simp only [perform, ExceptT.run_bind, StateT.run_bind, Act.perform_bind]
  rcases Act.perform (StateT.run (ExceptT.run m) writer) w with ⟨_ | ⟨_ | _, _⟩, _⟩ <;> rfl

theorem lift_bind (m : Act W α) (f : α → Act W β) :
    (liftM (m >>= f) : Printing W β) = (do let a ← liftM m; liftM (f a)) := by
  refine ext fun writer w => ?_
  simp only [perform_bind, perform_lift, Act.perform_bind]
  rcases m.perform w with ⟨_ | _, _⟩ <;> rfl

theorem perform_print (text : String) (writer : Writer) (w : W) :
    (print text).perform writer w =
      (.ok (if writer.fits text.toUTF8 then .ok () else .error .writerFull,
        writer.take text.toUTF8), w) := by
  have got : (get : Printing W Writer).perform writer w = (.ok (.ok writer, writer), w) := rfl
  have put (next : Writer) : (set next : Printing W PUnit).perform writer w =
      (.ok (.ok (), next), w) := rfl
  simp only [print, perform_bind, got, put]
  cases writer.fits text.toUTF8 <;> rfl

theorem perform_through (m : Printing W Unit) (room : Option Nat) (w : W) :
    (m.through room).perform w =
      match m.perform ⟨room, .empty⟩ w with
      | (.ok (.ok _, writer), w') => (.ok (writer.taken, none), w')
      | (.ok (.error failure, writer), w') => (.ok (writer.taken, some failure), w')
      | (.error i, w') => (.error i, w') := by
  simp only [through, Act.perform_bind]
  rw [show ((m.run.run ⟨room, .empty⟩).perform w) = m.perform ⟨room, .empty⟩ w from rfl]
  rcases m.perform ⟨room, .empty⟩ w with ⟨_ | ⟨_ | _, _⟩, _⟩ <;> rfl

/-! ## Texts in one piece -/

theorem print_empty : (print "" : Printing W Unit) = pure () := by
  refine ext fun writer w => ?_
  have nothing (n : Nat) : ByteArray.empty.extract 0 n = .empty := by
    simp [ByteArray.extract_eq_empty_iff]
  rcases writer with ⟨_ | n, taken⟩ <;>
    simp [perform_print, perform_pure, Writer.fits, Writer.take, nothing]

theorem print_print (a b : String) : (do print a; print b : Printing W Unit) = print (a ++ b) := by
  refine ext fun writer w => ?_
  have bytes : (a ++ b).toUTF8 = a.toUTF8 ++ b.toUTF8 := String.toByteArray_append ..
  rw [perform_bind, perform_print, perform_print, bytes, Writer.fits_append]
  cases fits : writer.fits a.toUTF8 with
  | true => simp [perform_print, Writer.take_take]
  -- Nothing of the second text is written, and nothing of it would have had room.
  | false =>
    rw [← Writer.take_take, Writer.take_of_not_fits fits]
    rfl

theorem forM_print (line : α → String) (l : List α) :
    (l.forM fun x => print (line x) : Printing W Unit) = print (String.join (l.map line)) := by
  induction l with
  | nil => exact print_empty.symm
  | cons x rest ih =>
    show (print (line x) >>= fun _ => rest.forM fun x => print (line x) : Printing W Unit) = _
    rw [ih, print_print, List.map_cons, String.join_cons]

theorem print_look (text : String) (view : W → α) (k : α → Printing W β) :
    (do print text; let a ← liftM (Act.view view); k a : Printing W β) =
      (do let a ← liftM (Act.view view); print text; k a) := by
  refine ext fun writer w => ?_
  simp only [perform_bind, perform_print, perform_lift, Act.perform_view]
  cases writer.fits text.toUTF8 <;> rfl

end Printing

/-! ## Outputs -/

/-- What a command wants to write, and whether it fails. -/
structure Output where
  text : String
  failure : Option Failure

/-- What reaches a writer that takes at most `room` bytes, and whether the command fails. -/
def Output.through (o : Output) (room : Option Nat) : ByteArray × Option Failure :=
  let bytes := o.text.toUTF8
  match room with
  | none => (bytes, o.failure)
  | some n => if bytes.size ≤ n then (bytes, o.failure) else (bytes.extract 0 n, some .writerFull)

theorem Output.through_of_fits {o : Output} {room : Option Nat}
    (fits : Writer.fits o.text.toUTF8 ⟨room, .empty⟩ = true) :
    o.through room = (o.text.toUTF8, o.failure) := by
  cases room with
  | none => rfl
  | some n =>
    have fits : o.text.toUTF8.size ≤ n := by simpa [Writer.fits] using fits
    exact if_pos fits

theorem Output.through_some (o : Output) (n : Nat) :
    o.through (some n) = (o.text.toUTF8.extract 0 n,
      if o.text.toUTF8.size ≤ n then o.failure else some .writerFull) := by
  simp only [through]
  split
  · next fits =>
    have whole := ByteArray.extract_zero_max_size (a := o.text.toUTF8) (i := n)
    rw [Nat.max_eq_left fits] at whole
    rw [whole]
  · rfl

/-- Write an output, and fail if it says so. -/
def Output.print (o : Output) : Printing W Unit := do
  Command.print o.text
  match o.failure with
  | none => return ()
  | some failure => throw failure

@[simp] theorem Output.print_success (text : String) :
    (Output.print ⟨text, none⟩ : Printing W Unit) = Command.print text :=
  bind_pure (m := Printing W) _

theorem Output.perform_print (o : Output) (writer : Writer) (w : W) :
    (Output.print o).perform writer w =
      (.ok (if writer.fits o.text.toUTF8 then o.failure.elim (.ok ()) .error
        else .error .writerFull, writer.take o.text.toUTF8), w) := by
  simp only [Output.print, Printing.perform_bind, Printing.perform_print]
  cases writer.fits o.text.toUTF8 <;> rcases o with ⟨text, _ | failure⟩ <;> rfl

variable (panels : Registry.Site W σ Panel)
  (settings : Settings.Site W σ UserSettings) (nested : Nested W σ)

def showSettings : Act W Output := do
  let u ← settings.look (·.value.value)
  return ⟨u.document.pretty ++ "\n", none⟩

/-- The layout, one panel a line, counted from 1. -/
def layoutText (m : Resolved Panel) : String :=
  if m.entries.isEmpty then "No panels mounted\n"
  else String.join (m.entries.zipIdx.map fun (entry, i) => panelLine (i + 1) entry.2)

/-- What a command does, and what it wants to write then. -/
def execute : Command → Act W Output
  | .settings => showSettings settings
  | .setLimit limit => do
    settings.value.update (settings.call nested)
      (fun u => { u with resultLimit := Int64.ofNat limit.toNat }) false (pure ())
    return ⟨"Showing up to " ++ toString limit.toNat ++ " results\n", none⟩
  | .reset => do
    settings.reset nested
    showSettings settings
  | .panels names => do
    let unknown ← mount panels nested names
    let text ← panels.look fun r => layoutText r.resolved.value
    if unknown.isEmpty then return ⟨text, none⟩
    else
      let known ← panels.look (·.catalog.keys)
      return ⟨text, some (.unknownKinds unknown known)⟩

theorem printSettings_eq :
    printSettings settings =
      (do let o ← liftM (showSettings settings); Output.print o : Printing W Unit) := by
  rw [showSettings, Printing.lift_bind, bind_assoc]
  simp only [Printing.lift_pure, pure_bind, Output.print_success]
  rfl

/-- The layout is written line by line as it is in one piece. -/
theorem printLayout_eq :
    printLayout panels =
      (do let text ← liftM (panels.look fun r => layoutText r.resolved.value); print text) := by
  refine Printing.ext fun writer w => ?_
  simp only [printLayout, Registry.Site.look, Printing.forM_print, Printing.perform_bind,
    Printing.perform_lift, Act.perform_view]
  cases entries : (panels.registry w).resolved.value.entries with
  -- There is nothing to write after the one line.
  | nil =>
    have empty : (panels.registry w).resolved.value.size = 0 := by simp [OrderedMap.size, entries]
    simp [empty, entries, layoutText, Printing.print_look, Printing.perform_bind,
      Printing.perform_lift, Printing.print_empty]
  | cons e rest =>
    have some : (panels.registry w).resolved.value.size ≠ 0 := by simp [OrderedMap.size, entries]
    simp [some, entries, layoutText, Printing.perform_bind, Printing.perform_lift]

/-- Whatever a command does, it does before it writes its first byte. -/
theorem write_eq (command : Command) :
    command.write panels settings nested =
      (do let o ← liftM (command.execute panels settings nested); Output.print o) := by
  cases command with
  | settings => exact printSettings_eq settings
  | setLimit limit =>
    simp only [write, execute, Printing.lift_bind, bind_assoc, Printing.lift_pure, pure_bind,
      Output.print_success]
  | reset =>
    simp only [write, execute, Printing.lift_bind, bind_assoc, printSettings_eq]
  | panels names =>
    simp only [write, execute, Printing.lift_bind, bind_assoc, printLayout_eq]
    refine bind_congr fun unknown => bind_congr fun text => ?_
    cases unknown.isEmpty with
    | true => exact (Output.print_success text).symm ▸ bind_pure _
    -- The names of the kinds are looked up after the layout has been written.
    | false =>
      refine (Printing.print_look text _ _).trans ?_
      simp only [Bool.false_eq_true, if_false, Printing.lift_bind, bind_assoc, Printing.lift_pure,
        pure_bind]
      rfl

theorem through_print (m : Act W Output) (room : Option Nat) :
    (do let o ← liftM m; Output.print o : Printing W Unit).through room =
      (fun o => o.through room) <$> m := by
  refine funext fun w => ?_
  show (Printing.through _ room).perform w = (_ <$> m).perform w
  simp only [Printing.perform_through, Printing.perform_bind, Printing.perform_lift,
    Act.perform_map]
  rcases m.perform w with ⟨i | o, w'⟩
  · rfl
  · simp only [Output.perform_print, Except.map]
    cases room with
    | none =>
      simp only [Output.through]
      cases o.failure <;> simp [Writer.fits, Writer.take]
    | some n =>
      rw [Output.through_some]
      generalize o.text.toUTF8 = bytes
      by_cases fits : bytes.size ≤ n
      · cases o.failure <;> simp [Writer.fits, Writer.take, fits]
      · simp [Writer.fits, Writer.take, fits]

/-- A command that writes to a limited writer does the same as to any other, and its text is cut
    off. -/
theorem write_through (command : Command) (room : Option Nat) :
    (command.write panels settings nested).through room =
      (fun o => o.through room) <$> command.execute panels settings nested := by
  rw [write_eq, through_print]

end LiveState.Command
