import LiveState.Proofs.Session.Contexts

/-! # Commands in a context that keeps its settings

What a command makes of the settings, what it leaves in the database, and what it shows.
-/

namespace LiveState

/-- What a command makes of the settings. -/
def Command.after (c : Command) (u : UserSettings) : UserSettings :=
  match c with
  | .setLimit limit => { u with resultLimit := Int64.ofNat limit.toNat }
  | .reset => .initial
  | .settings | .panels _ => u

/-- Whether a command sets the settings. -/
def Command.sets : Command → Bool
  | .setLimit _ | .reset => true
  | .settings | .panels _ => false

/-- What is shown of settings. -/
def UserSettings.shown (u : UserSettings) : ByteArray := (u.document.pretty ++ "\n").toUTF8

namespace Session

open Course

/-- The table after a command. -/
def tableAfter (table : OrderedMap String Stored) (c : Command) (u : UserSettings) :
    OrderedMap String Stored :=
  if c.sets then table.insert settingsKey (.bytes (c.after u).bytes) else table

variable {ρ : Type} {w : World ρ} {path : String} {l : Location}
  {table : OrderedMap String Stored} {u : UserSettings} {nested : Nested (World ρ) (Step ρ)}

/-! ## Settings -/

theorem showSettings_yields (h : w.Maintains path l table u) :
    (Command.showSettings (contextSettingsSite ⟨.database l, none⟩ 0) :
        Act (World ρ) Command.Output).Yields w
      fun o w' => o = ⟨u.document.pretty ++ "\n", none⟩ ∧ w' = w := by
  refine .look (.pure ⟨?_, rfl⟩)
  exact congrArg (fun u : UserSettings => (⟨u.document.pretty ++ "\n", none⟩ : Command.Output))
    h.value.value

theorem execute_yields (nested : Nested (World ρ) (Step ρ)) (h : w.Maintains path l table u)
    {c : Command} (about : ∀ names, c ≠ .panels names) :
    (c.execute (contextPanelsSite 0) (contextSettingsSite ⟨.database l, none⟩ 0) nested).Yields w
      fun o w' => w'.Maintains path l (tableAfter table c u) (c.after u) ∧
        (c = .settings ∨ c = .reset → o = ⟨(c.after u).document.pretty ++ "\n", none⟩) := by
  cases c with
  | settings =>
    refine (showSettings_yields h).mono fun o w' => ?_
    rintro ⟨shown, rfl⟩
    exact ⟨h, fun _ => shown⟩
  -- The other fields are those that were there before.
  | setLimit limit =>
    refine .bind (.look (.bind (.pure ?_)))
    have value : ((contextSettingsSite ⟨.database l, none⟩ 0).value.cell w).value = u :=
      h.value.value
    simp only [value, Bool.false_eq_true, if_false]
    exact (set_yields h _).mono fun _ w' kept => .pure ⟨kept, by simp⟩
  | reset =>
    have default : ((contextSettingsSite ⟨.database l, none⟩ 0).settings w).default = .initial :=
      h.default
    refine .bind (.look ?_)
    simp only [default]
    refine (set_yields h _).mono fun _ w' kept => (showSettings_yields kept).mono fun o w'' => ?_
    rintro ⟨shown, rfl⟩
    exact ⟨kept, fun _ => shown⟩
  | panels names => exact absurd rfl (about names)

/-! ## Panels -/

/-- The course on which the settings and the database are left alone. -/
def maintaining (path : String) (l : Location) (table : OrderedMap String Stored)
    (u : UserSettings) : Course (World ρ) :=
  Course.invariant fun w => w.Maintains path l table u

theorem maintaining_note (i : Registry.Incident Panel) :
    (maintaining (ρ := ρ) path l table u).Admits ((contextPanelsSite 0).note i) :=
  fun _ h => ⟨h.record _, trivial⟩

theorem maintaining_adjust {f : Registry (Step ρ) Panel → Registry (Step ρ) Panel}
    (hf : ∀ r : Registry (Step ρ) Panel, (f r).catalog = r.catalog ∧
      (f r).resolved.subscribers.size = r.resolved.subscribers.size) :
    (maintaining path l table u).Admits ((contextPanelsSite 0).adjust f) := by
  intro w h
  have adjusted := getD_modify h.small
    (fun c : Context (Step ρ) => { c with panels := f c.panels }) .blank
  refine ⟨⟨h.toHouses.modify fun c => ?_, ?_⟩, trivial⟩
  · obtain ⟨catalog, subscribers⟩ := hf c.panels
    exact ⟨rfl, rfl, rfl, subscribers, catalog⟩
  · exact (congrArg (fun c : Context (Step ρ) => c.settings.settings.value) adjusted) ▸ h.value

theorem maintaining_adjust_resolved
    {f : Observable (Resolved Panel) (Listener (Step ρ) (Resolved Panel)) →
      Observable (Resolved Panel) (Listener (Step ρ) (Resolved Panel))}
    (hf : ∀ o, (f o).subscribers.size = o.subscribers.size) :
    (maintaining path l table u).Admits ((contextPanelsSite 0).resolved.adjust f) :=
  maintaining_adjust (f := fun r => { r with resolved := f r.resolved }) fun r =>
    ⟨rfl, hf r.resolved⟩

/-- Nobody hears of a change of the panels. -/
theorem maintaining_set (v : Resolved Panel) :
    (maintaining path l table u).Carries
      ((contextPanelsSite (ρ := ρ) 0).resolved.set ((contextPanelsSite 0).call nested) v)
      ((contextPanelsSite 0).resolved.set ((contextPanelsSite 0).call nested) v) := by
  refine Place.Unwatched.set ⟨fun _ => maintaining_adjust_resolved fun _ => rfl,
    fun _ => maintaining_adjust_resolved fun _ => Array.size_modify .., fun _ =>
      maintaining_adjust_resolved fun _ => rfl, fun _ => maintaining_note _⟩ (fun id => ?_) v
  intro w h callback found
  -- Nobody has subscribed, so that there is no callback to look at.
  have small := Observable.lt_nextId_of_callback? found
  have none : ((contextPanelsSite 0).resolved.cell w).nextId = 0 := h.bare
  rw [none] at small
  exact absurd small (Nat.not_lt_zero id)

/-- Mounting panels leaves the settings and the database alone, however it ends. -/
theorem maintaining_panels (names : List String) :
    (maintaining path l table u).Carries
      ((Command.panels names).execute (contextPanelsSite (ρ := ρ) 0)
        (contextSettingsSite ⟨.database l, none⟩ 0) nested)
      ((Command.panels names).execute (contextPanelsSite 0)
        (contextSettingsSite ⟨.database l, none⟩ 0) nested) := by
  have unwatched : (contextPanelsSite (ρ := ρ) 0).Unwatched (maintaining path l table u) :=
    ⟨maintaining_adjust fun _ => ⟨rfl, rfl⟩, maintaining_note⟩
  have idle : Nested.Carried (maintaining path l table u) (fun _ => False) nested nested :=
    ⟨fun _ _ no => no.elim, fun _ no => no.elim⟩
  exact Command.panels_carries maintaining_note
    (unwatched.addKind (unwatched.builds idle fun _ h => h.catalog) maintaining_set) names

/-- Whatever the command: afterwards the settings are what it makes of them, and the database
    holds them. -/
theorem execute_maintains (h : w.Maintains path l table u) (c : Command) :
    ((c.execute (contextPanelsSite 0) (contextSettingsSite ⟨.database l, none⟩ 0) nested).perform
      w).2.Maintains path l (tableAfter table c u) (c.after u) := by
  by_cases about : ∃ names, c = .panels names
  -- Mounting may fail, but touches nothing that is kept.
  · obtain ⟨names, rfl⟩ := about
    exact (maintaining_panels names w h).sound
  · obtain ⟨o, w', ran, kept, -⟩ := execute_yields nested h fun names same =>
      about ⟨names, same⟩
    rw [ran]
    exact kept

/-! ## Steps -/

section Steps

variable [Inhabited ρ] [Settings.Record ρ] [Text.Describe ρ]

theorem exec_execute (h : w.Maintains path l table u) (named : w.contextNames.get? "" = some 0)
    (c : Command) (budget : Nat) :
    ((language ρ).exec (budget + 1) (.execute "" c none)).perform w =
      ((fun o => Reply.output o.text.toUTF8 o.failure) <$>
        c.execute (contextPanelsSite 0) (contextSettingsSite ⟨.database l, none⟩ 0)
          ((language ρ).nested ((language ρ).exec budget))).perform
        (w.record (.began (.execute "" c none))) := by
  have access : w.contextAccess 0 = ⟨.database l, none⟩ := h.access
  have executed : ((language ρ).exec (budget + 1) (.execute "" c none)).perform w = _ :=
    exec_execute_of_named named none budget
  rw [access] at executed
  exact executed

theorem exec_execute_maintains (h : w.Maintains path l table u)
    (named : w.contextNames.get? "" = some 0) (c : Command) (budget : Nat) :
    (((language ρ).exec (budget + 1) (.execute "" c none)).perform w).2.Maintains path l
      (tableAfter table c u) (c.after u) := by
  rw [exec_execute h named, Act.perform_map]
  exact execute_maintains (h.record _) c

theorem exec_execute_shows (h : w.Maintains path l table u)
    (named : w.contextNames.get? "" = some 0) {c : Command} (shows : c = .settings ∨ c = .reset)
    (budget : Nat) :
    (((language ρ).exec (budget + 1) (.execute "" c none)).perform w).1 =
      .ok (.output (c.after u).shown none) := by
  have about (names : List String) : c ≠ .panels names := by
    rintro rfl
    obtain no | no := shows <;> cases no
  rw [exec_execute h named, Act.perform_map]
  obtain ⟨o, w', ran, -, shown⟩ := execute_yields
    ((language ρ).nested ((language ρ).exec budget)) (h.record _) about
  rw [ran, shown shows]
  rfl

end Steps

end Session

end LiveState
