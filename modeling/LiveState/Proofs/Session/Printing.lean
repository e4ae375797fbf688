import LiveState.Proofs.Json.Squeeze
import LiveState.Proofs.Session.Attendance
import LiveState.Proofs.Session.Commands
import LiveState.Proofs.Session.Ending

/-! # What is printed and what is stored

The commands print the settings in the same JSON text as they are stored, but for its layout.
-/

namespace LiveState

/-- What is printed is a text with one line break at its end, and what is stored is the same text
    without the blanks outside of its string literals. -/
def Prints (printed stored : ByteArray) : Prop :=
  ∃ body : String, printed = (body ++ "\n").toUTF8 ∧
    (∃ last, body.toList.getLast? = some last ∧ last ≠ '\n') ∧
    stored = (String.ofList (Json.squeeze .outside (body ++ "\n").toList)).toUTF8

theorem UserSettings.prints (u : UserSettings) : Prints u.shown u.bytes := by
  obtain ⟨squeezed, last⟩ := Json.squeeze_pretty_obj
    ((limitField, .int u.resultLimit.toInt) :: u.extra)
  refine ⟨u.document.pretty, rfl, ⟨_, last, by decide⟩, ?_⟩
  rw [UserSettings.document, squeezed, String.ofList_toList]
  rfl

namespace Session

variable {ρ : Type}

variable {w : World ρ} {i : Nat} {name : String}

/-! ## Commands -/

theorem perform_showSettings (a : Access) (i : Nat) (w : World ρ) :
    (Command.showSettings (contextSettingsSite a i)).perform w =
      (.ok ⟨(w.settingsOf i).document.pretty ++ "\n", none⟩, w) := rfl

/-- What is shown after a reset are the settings that are there then.  It is not shown if a budget is
    used up before. -/
theorem perform_reset (small : i < w.contexts.size) (a : Access)
    (free : (w.settingsCell i).isBorrowed = false)
    (nested : Nested (World ρ) (Step ρ)) :
    ∃ e u, (Command.reset.execute (contextPanelsSite i) (contextSettingsSite a i) nested).perform w =
        (e, u) ∧
      (e = .ok ⟨(u.settingsOf i).document.pretty ++ "\n", none⟩ ∨ e = .error .exhausted) := by
  have calm : (((contextSettingsSite a i).value.set ((contextSettingsSite a i).call nested)
      ((contextSettingsSite a i).settings w).default).perform w).1 ≠ .error .panic :=
    Place.set_ne_panic (context_cell_adjust small a _) (fun _ _ => rfl) free
  simp only [Command.execute, Settings.Site.reset, Settings.Site.look, bind_assoc, Act.perform_bind,
    Act.perform_view]
  rcases ran : ((contextSettingsSite a i).value.set ((contextSettingsSite a i).call nested)
    ((contextSettingsSite a i).settings w).default).perform w with ⟨(_ | _) | _, u⟩
  · rw [ran] at calm
    exact absurd rfl calm
  · exact ⟨_, u, rfl, .inr rfl⟩
  · exact ⟨_, u, perform_showSettings a i u, .inl rfl⟩

theorem perform_reset_borrowed (a : Access)
    (borrowed : (w.settingsCell i).isBorrowed = true)
    (nested : Nested (World ρ) (Step ρ)) :
    (Command.reset.execute (contextPanelsSite i) (contextSettingsSite a i) nested).perform w =
      (.error .panic, w) := by
  have refused : ((contextSettingsSite a i).value.set ((contextSettingsSite a i).call nested)
      ((contextSettingsSite a i).settings w).default).perform w = (.error .panic, w) :=
    Place.perform_set_borrowed borrowed _
  simp only [Command.execute, Settings.Site.reset, Settings.Site.look, bind_assoc, Act.perform_bind,
    Act.perform_view, refused]

/-! ## Sessions -/

variable [Inhabited ρ] {files : FileTree}

/-- As long as nobody else writes, the settings that were written back last are stored as they are
    printed. -/
def World.StoresPrinted (files : FileTree) (w : World ρ) (i : Nat) : Prop :=
  w.Retains files i → ∀ u, (w.filing i).filed = some u →
    ∃ bytes, Prints (w.settingsOf i).shown bytes ∧
      w.media.holding (w.contextAccess i).medium settingsKey = some (.bytes bytes)

theorem World.Attended.storesPrinted (h : w.Attended files) (i : Nat) : w.StoresPrinted files i := by
  intro retains u filed
  obtain ⟨value, holds⟩ := h.filed i u retains filed
  exact ⟨u.bytes, value ▸ u.prints, holds⟩

/-- The bytes that are written back are those that are printed, but for their layout. -/
theorem World.Attended.writesPrinted (h : w.Attended files) (small : i < w.contexts.size)
    (u : UserSettings) :
    ∃ bytes, Prints u.shown bytes ∧
      (((contextSettingsSite (w.contextAccess i) i).writeBack u).perform w).2.media =
        (w.media.write (w.contextAccess i).medium settingsKey bytes).2 := by
  refine ⟨u.bytes, u.prints, ?_⟩
  rcases outcome : w.media.write (w.contextAccess i).medium settingsKey u.bytes with ⟨r, m⟩
  rw [perform_writeBack_settings (h.attended i small).key outcome, Act.perform_bind]
  rcases r with _ | e | _
  · rfl
  · cases e <;> rfl
  · rfl

variable [Settings.Record ρ] [Text.Describe ρ]

/-- The commands on context `i`, which has a name, print its settings as they are stored.  Nothing is
    printed after a reset that is cut short, for which the budget has to be less than what the
    subscribers may set off. -/
structure World.PrintsStored (files : FileTree) (w : World ρ) (name : String) (i : Nat) : Prop where
  settings : ∀ budget, ((language ρ).exec (budget + 1) (.execute name .settings none)).perform w =
    (.ok (.output (w.settingsOf i).shown none), w.record (.began (.execute name .settings none)))
  reset : ∀ budget, ∃ e u,
    ((language ρ).exec (budget + 1) (.execute name .reset none)).perform w = (e, u) ∧
    u.StoresPrinted files i ∧
    if (w.settingsCell i).isBorrowed then
      e = .error .panic ∧ u = w.record (.began (.execute name .reset none))
    else e = .ok (.output (u.settingsOf i).shown none) ∨ e = .error .exhausted ∧ budget < w.funds
  writes : ∀ u : UserSettings, ∃ bytes, Prints u.shown bytes ∧
    (((contextSettingsSite (w.contextAccess i) i).writeBack u).perform w).2.media =
      (w.media.write (w.contextAccess i).medium settingsKey bytes).2
  stored : w.StoresPrinted files i

theorem World.Attended.printsStored (h : w.Attended files)
    (named : w.contextNames.get? name = some i) : w.PrintsStored files name i where
  settings budget := by
    rw [exec_execute_of_named named, Act.perform_map]
    rfl
  reset budget := by
    have stays := (pursues_attending.exec (P := fun _ => True) (fun _ _ => trivial) (budget + 1)
      (.execute name .reset none) trivial w h).sound
    rcases ran : ((language ρ).exec (budget + 1) (.execute name .reset none)).perform w with ⟨e, u⟩
    rw [ran] at stays
    refine ⟨e, u, rfl, World.Attended.storesPrinted stays i, ?_⟩
    -- A reset is shown unless its budget is smaller than what the subscribers may still set off.
    have cut (exhausted : e = .error .exhausted) : budget < w.funds := by
      rw [exhausted] at ran
      exact Nat.lt_of_succ_lt_succ (h.lt_of_exhausted ran)
    rw [exec_execute_of_named named, Act.perform_map] at ran
    split
    · next borrowed =>
      rw [perform_reset_borrowed (w := w.record (.began (.execute name .reset none))) _ borrowed] at ran
      cases ran
      exact ⟨rfl, rfl⟩
    · next free =>
      obtain ⟨e', u', ran', ends⟩ := perform_reset
        (w := w.record (.began (.execute name .reset none))) (h.names name i named)
        (w.contextAccess i) (Bool.eq_false_iff.2 free) ((language ρ).nested ((language ρ).exec budget))
      rw [ran'] at ran
      rcases ends with rfl | rfl
      · cases ran
        exact .inl rfl
      · cases ran
        exact .inr ⟨rfl, cut rfl⟩
  writes u := h.writesPrinted (h.names name i named) u
  stored := h.storesPrinted i

/-- What is printed is what is stored.  Whatever the steps of a session are, whenever a step begins
    and at the end: the commands that print the settings of a context end their text with one line
    break, and without the blanks outside of its string literals it is what is written back for these
    settings; so it is what is stored if they were written back last, and nobody else has written
    since. -/
theorem session_prints_stored (files : FileTree) (budget : Nat) (steps : List (Step ρ)) :
    (language ρ).Throughout
      (fun w => ∀ name i, w.contextNames.get? name = some i → w.PrintsStored files name i)
      budget steps (World.start files) :=
  pursues_attending.throughout
    (fun _ h _ _ named => World.Attended.printsStored h named)
    budget (fun _ _ => trivial) (.start files)

/-- Settings that were set in a session are written back. -/
example :
    let steps : List (Step UserSettings) := [.medium "m" (.openAs (.memory [])), .context "c" "m",
      .execute "c" (.setLimit 7) none]
    ((((language UserSettings).run 2 steps (World.start (.empty []))).2.filing 0).filed.map
      (·.resultLimit)) = some 7 := by decide

end Session

end LiveState
