import Mathlib
import LiveState.Proofs.Command
import LiveState.Proofs.Registry.Layouts
import LiveState.Proofs.Registry.Undisturbed
import LiveState.Proofs.Session.Course

/-! # The command that mounts panels

What it makes of a layout, what it shows, and when it fails, if nobody else changes the layout
meanwhile.
-/

namespace LiveState

open Registry

namespace Command

variable {W σ : Type} {s : Site W σ Panel} {nested : Nested W σ} {I : W → Prop} {w : W}
  {calls : Nat} {m : Resolved Panel}

/-- All kinds are mounted that are mentioned, and the other names are the result. -/
theorem mount_yields (h : s.Undisturbed nested I) (names : List String) (hw : I w)
    (face : (s.registry w).face = (.panels, calls, m, false)) :
    (mount s nested names).Yields w fun unknown w' =>
      unknown = names.filter (· ∉ PanelKind.names) ∧ I w' ∧
        (s.registry w').face =
          (.panels, calls + mentions names, mountAll names calls m, false) := by
  induction names generalizing w calls m with
  | nil => exact .pure ⟨rfl, hw, face⟩
  | cons name names ih =>
    rw [mount]
    cases known : PanelKind.ofName? name with
    | some kind =>
      have named := PanelKind.mem_names known
      refine .bind ((h.addKind_yields hw face kind).mono fun _ u => ?_)
      rintro ⟨hu, added⟩
      refine (ih hu added).mono fun unknown w' => ?_
      rintro ⟨rfl, hw', after⟩
      refine ⟨by simp [named], hw', ?_⟩
      rw [after, mountAll, known, mentions_known known, Nat.add_right_comm, Nat.add_assoc]
    | none =>
      have unnamed := PanelKind.ofName?_eq_none.1 known
      refine .bind (.change (.bind ((ih (h.note _ w hw) ((h.face_note _ w).trans face)).mono
        fun unknown w' => ?_)))
      rintro ⟨rfl, hw', after⟩
      refine .pure ⟨by simp [unnamed], hw', ?_⟩
      rw [after, mountAll, known, mentions_unknown known]

/-- The layout has a line for every panel that is mounted, with the title and the name of its
    kind. -/
theorem layoutText_eq (h : PanelLayout m) :
    ∃ kinds : List PanelKind, kinds.map PanelKind.name = m.keys ∧
      layoutText m =
        if kinds = [] then "No panels mounted\n"
        else String.join (kinds.zipIdx.map fun (kind, i) =>
          toString (i + 1) ++ ". " ++ kind.title ++ " (" ++ kind.name ++ ")\n") := by
  refine ⟨m.entries.map (·.2.kind), h.keys_eq.symm, ?_⟩
  rcases m with ⟨_ | ⟨e, rest⟩⟩
  · rfl
  · simp only [layoutText, List.isEmpty_cons, Bool.false_eq_true, if_false, List.map_cons,
      reduceCtorEq]
    rw [← List.map_cons (f := fun e : String × Panel => e.2.kind), List.zipIdx_map, List.map_map]
    rfl

theorem execute_panels_yields (settings : Settings.Site W σ UserSettings)
    (h : s.Undisturbed nested I) (names : List String) (hw : I w)
    (face : (s.registry w).face = (.panels, calls, m, false)) :
    ((Command.panels names).execute s settings nested).Yields w fun o w' =>
      I w' ∧ (s.registry w').face =
          (.panels, calls + mentions names, mountAll names calls m, false) ∧
        o = ⟨layoutText (mountAll names calls m),
          if names.all (· ∈ PanelKind.names) then none
          else some (.unknownKinds (names.filter (· ∉ PanelKind.names)) PanelKind.names)⟩ := by
  refine .bind ((mount_yields h names hw face).mono fun unknown w' => ?_)
  rintro ⟨rfl, hw', after⟩
  have shown := after
  simp only [Registry.face, Prod.mk.injEq] at shown
  obtain ⟨catalog, -, value, -⟩ := shown
  have kinds : (s.registry w').catalog.keys = PanelKind.names := by rw [catalog]; rfl
  have all : (names.filter (· ∉ PanelKind.names)).isEmpty = names.all (· ∈ PanelKind.names) := by
    rw [Bool.eq_iff_iff]
    simp
  refine .look ?_
  simp only [value, all]
  split
  · exact .pure ⟨hw', after, rfl⟩
  · refine .look ?_
    simp only [kinds]
    exact .pure ⟨hw', after, rfl⟩

end Command

namespace Session

variable {ρ : Type} {nested : Nested (World ρ) (Step ρ)} {I : World ρ → Prop} {w : World ρ}
  {i : Nat}

def World.panels (w : World ρ) (i : Nat) : Registry (Step ρ) Panel :=
  (w.contexts.getD i .blank).panels

/-- What a context keeps its settings in: its record, and all media. -/
def World.kept (w : World ρ) (i : Nat) : Kept (Step ρ) UserSettings × Media :=
  ((w.contexts.getD i .blank).settings, w.media)

theorem kept_adjust (f : Registry (Step ρ) Panel → Registry (Step ρ) Panel) (w : World ρ) :
    ((contextPanelsSite i).adjust f w).kept i = w.kept i := by
  refine Prod.ext ?_ rfl
  show ((w.contexts.modify i _).getD i .blank).settings = (w.contexts.getD i .blank).settings
  by_cases small : i < w.contexts.size
  · rw [getD_modify small]
  · simp [Array.getD, small]

/-! ## Subscribers that only look -/

/-- Steps that only look at what is mounted. -/
inductive Looks : Step ρ → Prop
  | list (name : String) : Looks (.contextPanels name .list)
  | get (name key : String) : Looks (.contextPanels name (.get key))
  | contains (name key : String) : Looks (.contextPanels name (.contains key))
  | size (name : String) : Looks (.contextPanels name .size)
  | isEmpty (name : String) : Looks (.contextPanels name .isEmpty)

/-- A context whose panels have only subscribers that look at what is mounted. -/
structure World.Watched (w : World ρ) (i : Nat) : Prop where
  small : i < w.contexts.size
  scripts : ∀ id l, (w.panels i).resolved.callback? id = some l → l.IsScript Looks

theorem panels_adjust (small : i < w.contexts.size)
    (f : Registry (Step ρ) Panel → Registry (Step ρ) Panel) :
    ((contextPanelsSite i).adjust f w).panels i = f (w.panels i) :=
  congrArg Context.panels (getD_modify small (fun c : Context (Step ρ) =>
    { c with panels := f c.panels }) .blank)

namespace World.Watched

theorem record (h : w.Watched i) (e : Event (Step ρ) (Reply ρ) (Incident ρ)) :
    (w.record e).Watched i := ⟨h.small, h.scripts⟩

theorem adjust (h : w.Watched i) {f : Registry (Step ρ) Panel → Registry (Step ρ) Panel}
    (hf : ∀ id l, (f (w.panels i)).resolved.callback? id = some l → l.IsScript Looks) :
    ((contextPanelsSite i).adjust f w).Watched i where
  small := Nat.lt_of_lt_of_eq h.small (Array.size_modify ..).symm
  scripts := by rwa [panels_adjust h.small]

end World.Watched

section

variable [Inhabited ρ] [Settings.Record ρ] [Text.Describe ρ]

/-- The context is watched, and keeps its settings as they are. -/
def World.Untouched (w : World ρ) (i : Nat) (k : Kept (Step ρ) UserSettings × Media) : Prop :=
  w.Watched i ∧ w.kept i = k

variable {k : Kept (Step ρ) UserSettings × Media}

omit [Inhabited ρ] [Settings.Record ρ] [Text.Describe ρ] in
theorem World.Untouched.adjust (h : w.Untouched i k)
    {f : Registry (Step ρ) Panel → Registry (Step ρ) Panel}
    (hf : ∀ id l, (f (w.panels i)).resolved.callback? id = some l → l.IsScript Looks) :
    ((contextPanelsSite i).adjust f w).Untouched i k :=
  ⟨h.1.adjust hf, (kept_adjust f w).trans h.2⟩

theorem Looks.exec_carries {s : Step ρ} (looks : Looks s) (budget : Nat) :
    ((contextPanelsSite i).leaving (·.Untouched i k)).Carries ((language ρ).exec (budget + 1) s)
      ((language ρ).exec (budget + 1) s) := by
  have began : ((contextPanelsSite i).leaving (·.Untouched i k)).Admits
      (World.record (.began s)) := fun w hw => ⟨⟨hw.1.record _, hw.2⟩, rfl, rfl⟩
  refine began.carries.bind fun _ => ?_
  cases looks <;>
    exact Loose.withContext_carries (fun j => ((Course.carries_view _).map _).map _) _

/-- Subscribers that only look disturb nothing. -/
theorem watched_undisturbed (i budget : Nat) (k : Kept (Step ρ) UserSettings × Media) :
    (contextPanelsSite i).Undisturbed ((language ρ).nested ((language ρ).exec (budget + 1)))
      (·.Untouched i k) := by
  refine Site.undisturbed_of_scripts Looks (fun f w hw => panels_adjust hw.1.small f)
    (fun _ _ => rfl) (fun w hw => hw.adjust hw.1.scripts)
    (fun v w hw => hw.adjust (f := fun r => { r with resolved := r.resolved.store v })
      hw.1.scripts) (fun id j w hw => hw.adjust
        (f := fun r => { r with resolved := r.resolved.adjustCallback id (·.spend j) }) ?_)
    (fun _ w hw => ⟨hw.1.record _, hw.2⟩) (fun w hw => hw.1.scripts) fun name t looks => ?_
  · exact Observable.forall_callback_adjustCallback hw.1.scripts fun _ => .spend
  · exact (looks.exec_carries budget).bind fun r => Course.Admits.carries fun w hw =>
      ⟨⟨hw.1.record _, hw.2⟩, rfl, rfl⟩

theorem watched_spares (i budget : Nat) (k : Kept (Step ρ) UserSettings × Media) :
    (contextPanelsSite i).Spares ((language ρ).nested ((language ρ).exec (budget + 1)))
      (·.Untouched i k) (·.kept i) := fun w hw id l found pass v =>
  ((watched_undisturbed i budget k).served id w hw l found pass v).sound.2.trans hw.2.symm

/-- In whatever way kinds have been mounted in a context and taken out, if nobody holds its layout,
    and nobody who is called changes it, the command comes to its end.  What was mounted stays in
    its place, and what is mentioned for the first time follows in the order of the first mentions;
    every mentioned kind has the panel of its last mention, and the other panels are the same as
    before.  What is shown is what is mounted then, a line for each panel.  The command fails if
    some names are no kind's, and then it tells all of these, and the names of all kinds.  The
    settings and the media are left alone, unless somebody who is called changes them. -/
theorem panels_mounts {name : String} (named : w.contextNames.get? name = some i)
    (undisturbed : (contextPanelsSite i).Undisturbed nested I) (hw : I w)
    (catalog : (w.panels i).catalog = .panels) (layout : PanelLayout (w.panels i).resolved.value)
    (free : (w.panels i).resolved.isBorrowed = false) (names : List String) :
    ∃ w' text failure,
      (perform nested (.execute name (.panels names) none)).perform w =
        (.ok (.output text.toUTF8 failure), w') ∧ I w' ∧
      MountedBy names (w.panels i).calls (w.panels i).resolved.value
        (w'.panels i).resolved.value ∧
      (∃ kinds : List PanelKind, kinds.map PanelKind.name = (w'.panels i).resolved.value.keys ∧
        text = if kinds = [] then "No panels mounted\n"
          else String.join (kinds.zipIdx.map fun (kind, i) =>
            toString (i + 1) ++ ". " ++ kind.title ++ " (" ++ kind.name ++ ")\n")) ∧
      failure = (if names.all (· ∈ PanelKind.names) then none
        else some (.unknownKinds (names.filter (· ∉ PanelKind.names)) PanelKind.names)) ∧
      ((contextPanelsSite i).Spares nested I (·.kept i) → w'.kept i = w.kept i) := by
  have face : ((contextPanelsSite i).registry w).face =
      (.panels, (w.panels i).calls, (w.panels i).resolved.value, false) := by
    rw [← catalog, ← free]
    rfl
  have execute {J : World ρ → Prop} (h : (contextPanelsSite i).Undisturbed nested J) (hw : J w) :=
    Command.execute_panels_yields (contextSettingsSite (w.contextAccess i) i) h names hw face
  obtain ⟨o, w', ran, hw', after, shown⟩ := execute undisturbed hw
  simp only [Registry.face, Prod.mk.injEq] at after
  obtain ⟨-, -, value, -⟩ := after
  have value : (w'.panels i).resolved.value =
      mountAll names (w.panels i).calls (w.panels i).resolved.value := value
  refine ⟨w', o.text, o.failure, ?_, hw', ?_, ?_, ?_, fun spares => ?_⟩
  · rw [perform_execute]
    simp only [withContext, Act.perform_bind, Act.perform_view, named, ran]
    rfl
  · rw [value]
    exact mountedBy_mountAll ..
  · rw [value, shown]
    exact Command.layoutText_eq (layout.mountAll ..)
  · rw [shown]
  -- Whatever nobody who is called changes, the command itself does not change either.
  · have sparing := undisturbed.sparing spares (fun f w _ => kept_adjust f w) (fun _ _ => rfl)
      (w.kept i)
    obtain ⟨_, w'', ran', ⟨-, same⟩, -⟩ := execute sparing ⟨hw, rfl⟩
    rw [ran] at ran'
    cases ran'
    exact same

end

/-- A session in which kinds were mounted in a new context and taken out, while a subscriber was
    looking at every layout. -/
def World.lookedAt : World UserSettings :=
  ((language UserSettings).run 2 [.medium "m" (.openAs .disabled), .context "c" "m",
    .contextPanels "c" (.addKind .parseError),
    .contextPanels "c" (.resolved (.subscribe "s" [⟨fun _ => true, 9, [.contextPanels "c" .list]⟩])),
    .contextPanels "c" (.add "SearchResult"), .contextPanels "c" (.remove "SearchResult")]
    (World.start (.empty []))).2

theorem lookedAt_panels :
    World.lookedAt.panels 0 = ⟨.panels, 2, ⟨⟨[("ParseError", ⟨.parseError, 1⟩)]⟩, 3,
      #[⟨.script "s" [⟨fun _ => true, 6, [.contextPanels "c" .list]⟩], true⟩], [0], 0⟩⟩ := by
  cbv

theorem lookedAt_watched : World.lookedAt.Watched 0 := by
  refine ⟨by decide +kernel, fun id l found => ?_⟩
  rw [lookedAt_panels] at found
  -- There is one subscriber, whose one rule has one step.
  cases id with
  | zero =>
    cases found
    refine ⟨fun r hr t ht => ?_, nofun⟩
    cases List.mem_singleton.1 hr
    cases List.mem_singleton.1 ht
    exact .list "c"
  | succ id => simp [Observable.callback?] at found

/-- Panels are mounted by five names, of which two are no kind's. -/
theorem panels_mounts_lookedAt :
    let names := ["Clock", "SearchResult", "ParseError", "SearchResult", "Clock"]
    ∃ (w' : World UserSettings) (text : String),
      (perform ((language UserSettings).nested ((language UserSettings).exec 1))
          (.execute "c" (.panels names) none)).perform .lookedAt =
        (.ok (.output text.toUTF8
          (some (.unknownKinds ["Clock", "Clock"] ["SearchResult", "ParseError"]))), w') ∧
      (w'.panels 0).resolved.value.keys = ["ParseError", "SearchResult"] ∧
      (w'.panels 0).resolved.value.get? "SearchResult" = some ⟨.searchResult, 5⟩ ∧
      w'.kept 0 = World.lookedAt.kept 0 := by
  intro names
  have named : World.lookedAt.contextNames.get? "c" = some 0 := by decide +kernel
  have layout : PanelLayout (World.lookedAt.panels 0).resolved.value := by
    have removed : (⟨[("ParseError", ⟨.parseError, 1⟩)]⟩ : Resolved Panel) =
        ((OrderedMap.empty.insert "ParseError" ⟨.parseError, 1⟩).insert "SearchResult"
          ⟨.searchResult, 2⟩).erase "SearchResult" := congrArg OrderedMap.mk (by decide)
    rw [lookedAt_panels, removed]
    exact .removed _ (.mounted .searchResult 2 (.mounted .parseError 1 .empty))
  obtain ⟨w', text, failure, ran, -, after, -, rfl, kept⟩ := panels_mounts named
    (watched_undisturbed 0 0 (World.lookedAt.kept 0)) ⟨lookedAt_watched, rfl⟩
    (by rw [lookedAt_panels]) layout (by rw [lookedAt_panels]; rfl) names
  rw [lookedAt_panels] at after
  refine ⟨w', text, ran, ?_, ?_, kept (watched_spares 0 0 _)⟩
  · rw [after.order]
    decide
  · exact after.mentioned ["Clock", "SearchResult", "ParseError"] .searchResult ["Clock"] rfl
      (by decide)

end Session

end LiveState
