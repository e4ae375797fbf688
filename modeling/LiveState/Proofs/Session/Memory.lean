import LiveState.Proofs.Registry.Accord
import LiveState.Proofs.Settings.Accord
import LiveState.Proofs.Session.Attempts
import LiveState.Proofs.Session.Course

/-! # What a session has in memory

A session has records and contexts in memory, with the names of these and of subscriptions, and a
past as far as it is about them.  It does not matter where the records are kept.  Two sessions that
have the same in memory go on so, whatever their media do, as long as they do the same and load
nothing.
-/

namespace LiveState

/-- Whether what happens to a record is about memory.  It is not if it is a notice, or tells how the
    first subscriber, which writes back, has come to its end. -/
def Settings.Incident.isRemembered {ρ : Type} : Settings.Incident ρ → Bool
  | .notice _ | .value (.returned _ 0) | .value (.faulted _ 0) => false
  | .value _ => true

namespace Session

open Act

variable {ρ : Type}

/-! ## Steps in memory -/

/-- A step that has to do with memory only: it neither opens, reads nor writes a medium or a file
    itself, and so do the steps in it. -/
inductive InMemory : Step ρ → Prop where
  | subscription (name : String) (request : Subscription.Request) :
      InMemory (.subscription name request)
  | panic : InMemory .panic
  | settings (name : String) (action : Settings.Action (Step ρ) ρ)
      (h : ∀ s ∈ action.steps, InMemory s) : InMemory (.settings name action)
  | drop (name : String) : InMemory (.drop name)
  | contextSettings (name : String) (action : Settings.Action (Step ρ) UserSettings)
      (h : ∀ s ∈ action.steps, InMemory s) : InMemory (.contextSettings name action)
  | contextPanels (name : String) (action : Registry.Action (Step ρ) Panel)
      (h : ∀ s ∈ action.steps, InMemory s) : InMemory (.contextPanels name action)
  | describe (name : String) (pretty : Bool) : InMemory (.describe name pretty)
  | execute (name : String) (command : Command) (room : Option Nat) :
      InMemory (.execute name command room)

/-! ## Memory -/

/-- Whether a line of the journal is about memory. -/
def isRemembered : Line ρ → Bool
  | .began (.file _) | .began (.medium _ _) | .began (.load _ _ _ _) | .began (.context _ _)
  | .began (.bootstrap _ _) => false
  | .happened (.settings _ i) => i.isRemembered
  | .happened (.contextSettings _ i) => i.isRemembered
  | .happened (.reading _ _) | .happened (.writing _ _ _) | .happened (.notice _) => false
  | _ => true

/-- What of a context is in memory. -/
structure ContextMemory (ρ : Type) where
  panels : Registry (Step ρ) Panel
  settings : Settings (Step ρ) UserSettings

/-- What a session has in memory. -/
structure Memory (ρ : Type) where
  records : Array (Settings (Step ρ) ρ)
  contexts : Array (ContextMemory ρ)
  recordNames : OrderedMap String Nat
  contextNames : OrderedMap String Nat
  subscriptions : OrderedMap String (Source × Nat)
  past : List (Line ρ)

def Context.memory (c : Context (Step ρ)) : ContextMemory ρ := ⟨c.panels, c.settings.settings⟩

def World.memory (w : World ρ) : Memory ρ where
  records := w.records.map (·.settings)
  contexts := w.contexts.map (·.memory)
  recordNames := w.recordNames
  contextNames := w.contextNames
  subscriptions := w.subscriptions
  past := w.journal.toList.filter isRemembered

/-- Nobody but the first subscriber of a record writes back, and its scripts run steps in memory. -/
def Tame {β : Type} (s : Settings (Step ρ) β) : Prop := s.value.Tame InMemory (· = 0)

/-- Nothing is written back for the panels of a context but what is for its settings, and scripts
    and factories run steps in memory. -/
structure ContextMemory.Tame (c : ContextMemory ρ) : Prop where
  resolved : c.panels.resolved.Tame InMemory fun _ => False
  catalog : c.panels.catalog.Within InMemory
  settings : Session.Tame c.settings

/-- All scripts and factories run steps in memory only. -/
structure Memory.Tame (m : Memory ρ) : Prop where
  records : ∀ (i : Nat) (s : Settings (Step ρ) ρ), m.records[i]? = some s → Session.Tame s
  contexts : ∀ (i : Nat) (c : ContextMemory ρ), m.contexts[i]? = some c → c.Tame

/-- Two sessions have the same in memory, where everything goes on in memory. -/
structure Alike (w w' : World ρ) : Prop where
  memory : w.memory = w'.memory
  tame : w.memory.Tame

theorem alike_start (files files' : FileTree) :
    Alike (World.start files : World ρ) (World.start files') := by
  refine ⟨rfl, ⟨fun i s found => ?_, fun i c found => ?_⟩⟩
  · simp [World.memory, World.start] at found
  · simp [World.memory, World.start] at found

section

variable {w w' u u' : World ρ}

theorem Alike.symm (h : Alike w w') : Alike w' w := ⟨h.memory.symm, h.memory ▸ h.tame⟩

/-- Memories that are changed in the same way remain the same. -/
theorem Alike.change (h : Alike w w') (f : Memory ρ → Memory ρ) (hu : u.memory = f w.memory)
    (hu' : u'.memory = f w'.memory) (tame : (f w.memory).Tame) : Alike u u' :=
  ⟨by rw [hu, hu', h.memory], hu ▸ tame⟩

theorem unseen_of_memory {f : World ρ → World ρ} (same : ∀ w, (f w).memory = w.memory) :
    Unseen Alike f :=
  fun w _ h => ⟨(same w).trans h.memory, (same w).symm ▸ h.tame⟩

theorem memory_record (e : Line ρ) (w : World ρ) :
    (w.record e).memory = { w.memory with past := w.memory.past ++ [e].filter isRemembered } := by
  simp [World.memory, World.record, List.filter_append]

theorem Alike.record (h : Alike w w') (e : Line ρ) : Alike (w.record e) (w'.record e) :=
  h.change (fun m => { m with past := m.past ++ [e].filter isRemembered }) (memory_record e w)
    (memory_record e w') ⟨h.tame.records, h.tame.contexts⟩

theorem unseen_record {e : Line ρ} (forgotten : isRemembered e = false) :
    Unseen Alike (World.record e) :=
  unseen_of_memory fun w => by simp [memory_record, forgotten]

theorem map_modify {κ β : Type} {f : κ → κ} {g : β → β} {view : κ → β}
    (same : ∀ x, view (f x) = g (view x)) (xs : Array κ) (i : Nat) :
    (xs.modify i f).map view = (xs.map view).modify i g := by
  refine Array.ext (by simp) fun j _ _ => ?_
  simp only [Array.getElem_map, Array.getElem_modify]
  split <;> simp [same]

theorem Alike.modifyRecord (h : Alike w w') (i : Nat) {f : Kept (Step ρ) ρ → Kept (Step ρ) ρ}
    (g : Settings (Step ρ) ρ → Settings (Step ρ) ρ) (same : ∀ k, (f k).settings = g k.settings)
    (tame : ∀ s, w.memory.records[i]? = some s → Tame (g s)) :
    Alike { w with records := w.records.modify i f }
      { w' with records := w'.records.modify i f } := by
  have modified (w : World ρ) : World.memory { w with records := w.records.modify i f } =
      { w.memory with records := w.memory.records.modify i g } :=
    congrArg (fun records => ({ w.memory with records := records } : Memory ρ))
      (map_modify same w.records i)
  refine h.change (fun m => { m with records := m.records.modify i g }) (modified w) (modified w')
    ⟨fun j s found => ?_, h.tame.contexts⟩
  rw [Array.getElem?_modify] at found
  split at found
  · next here =>
    obtain ⟨s', was, rfl⟩ := Option.map_eq_some_iff.1 found
    exact tame s' (here ▸ was)
  · exact h.tame.records j s found

theorem Alike.modifyContext (h : Alike w w') (i : Nat)
    {f : Context (Step ρ) → Context (Step ρ)} (g : ContextMemory ρ → ContextMemory ρ)
    (same : ∀ c, (f c).memory = g c.memory)
    (tame : ∀ c, w.memory.contexts[i]? = some c → (g c).Tame) :
    Alike { w with contexts := w.contexts.modify i f }
      { w' with contexts := w'.contexts.modify i f } := by
  have modified (w : World ρ) : World.memory { w with contexts := w.contexts.modify i f } =
      { w.memory with contexts := w.memory.contexts.modify i g } :=
    congrArg (fun contexts => ({ w.memory with contexts := contexts } : Memory ρ))
      (map_modify same w.contexts i)
  refine h.change (fun m => { m with contexts := m.contexts.modify i g }) (modified w)
    (modified w') ⟨h.tame.records, fun j c found => ?_⟩
  rw [Array.getElem?_modify] at found
  split at found
  · next here =>
    obtain ⟨c', was, rfl⟩ := Option.map_eq_some_iff.1 found
    exact tame c' (here ▸ was)
  · exact h.tame.contexts j c found

end

/-! ## Sites -/

theorem getD_of_getElem? {κ : Type} {xs : Array κ} {i : Nat} {x : κ} (there : xs[i]? = some x)
    (blank : κ) : xs.getD i blank = x := by
  rw [Array.getD_eq_getD_getElem?, there, Option.getD_some]

theorem memory_getD_context (i : Nat) (w : World ρ) :
    (w.contexts.getD i .blank).memory =
      w.memory.contexts.getD i (Context.memory (ρ := ρ) .blank) := by
  simp [World.memory, Array.getD_eq_getD_getElem?, Option.getD_map]

theorem Memory.Tame.context {m : Memory ρ} (h : m.Tame) (i : Nat) :
    (m.contexts.getD i (Context.memory (ρ := ρ) .blank)).Tame := by
  rw [Array.getD_eq_getD_getElem?]
  cases found : m.contexts[i]? with
  | none => exact ⟨Observable.tame_new _, nofun, Observable.tame_new _⟩
  | some c => exact h.contexts i c found

theorem Alike.context {w w' : World ρ} (h : Alike w w') (i : Nat) :
    (w.contexts.getD i .blank).memory = (w'.contexts.getD i .blank).memory ∧
      (w.contexts.getD i .blank).memory.Tame := by
  rw [memory_getD_context, memory_getD_context, ← h.memory]
  exact ⟨rfl, h.tame.context i⟩

/-- A site of settings whose notices and whose first subscriber are not remembered. -/
theorem settingsSite_common {β : Type} {s : Settings.Site (World ρ) (Step ρ) β}
    {note : Settings.Incident β → Incident ρ} (noted : ∀ e w, s.note e w = w.note (note e))
    (remembered : ∀ e, isRemembered (.happened (note e)) = e.isRemembered)
    (settings : ∀ w w', Alike w w' → s.settings w = s.settings w')
    (tame : ∀ w w', Alike w w' → Tame (s.settings w))
    (adjust : ∀ w w' f, Alike w w' → Tame (f (s.settings w)) →
      Alike (s.adjust f w) (s.adjust f w')) : s.Common Alike InMemory := by
  have unseen (e : Settings.Incident β) (forgotten : e.isRemembered = false) :
      Unseen Alike (s.note e) :=
    funext (noted e) ▸ unseen_record ((remembered e).trans forgotten)
  refine ⟨⟨fun w w' h => congrArg Settings.value (settings w w' h), tame,
    fun w w' f h => adjust w w' (fun r => { r with value := f r.value }) h, fun w w' o h => ?_,
    fun pass id first => ?_, fun pass id first => ?_⟩, settings, fun n => unseen _ rfl⟩
  · show Alike (s.note _ w) (s.note _ w')
    rw [noted, noted]
    exact h.record _
  · cases first
    exact unseen _ rfl
  · cases first
    exact unseen _ rfl

theorem contextSettingsSite_common (access : Access) (i : Nat) :
    (contextSettingsSite (ρ := ρ) access i).Common Alike InMemory := by
  refine settingsSite_common (fun _ _ => rfl) (fun _ => rfl)
    (fun w w' h => congrArg ContextMemory.settings (h.context i).1)
    (fun w w' h => (h.context i).2.settings) fun w w' f h tame => ?_
  refine h.modifyContext i (fun c => { c with settings := f c.settings }) (fun _ => rfl)
    fun c there => ?_
  obtain ⟨resolved, catalog, -⟩ := h.tame.contexts i c there
  have here : (w.contexts.getD i .blank).memory = c :=
    (memory_getD_context i w).trans (getD_of_getElem? there _)
  exact ⟨resolved, catalog, here ▸ tame⟩

theorem contextPanelsSite_common (i : Nat) :
    (contextPanelsSite (ρ := ρ) i).Common Alike InMemory := by
  have same (w w' : World ρ) (h : Alike w w') : (contextPanelsSite i).registry w =
      (contextPanelsSite i).registry w' := congrArg ContextMemory.panels (h.context i).1
  -- Whatever is done to the registry leaves its catalog, and the settings beside it.
  have adjust (w w' : World ρ) (h : Alike w w') (f : Registry (Step ρ) Panel → Registry _ Panel)
      (catalog : ∀ r, (f r).catalog = r.catalog)
      (tame : (f ((contextPanelsSite i).registry w)).resolved.Tame InMemory fun _ => False) :
      Alike ((contextPanelsSite i).adjust f w) ((contextPanelsSite i).adjust f w') := by
    refine h.modifyContext i (fun c => { c with panels := f c.panels }) (fun _ => rfl)
      fun c there => ?_
    have was := h.tame.contexts i c there
    have here : (w.contexts.getD i .blank).memory = c :=
      (memory_getD_context i w).trans (getD_of_getElem? there _)
    refine ⟨here ▸ tame, ?_, was.settings⟩
    show (f c.panels).catalog.Within InMemory
    rw [catalog]
    exact was.catalog
  exact ⟨⟨fun w w' h => congrArg Registry.resolved (same w w' h),
    fun w w' h => (h.context i).2.resolved,
    fun w w' f h tame => adjust w w' h (fun r => { r with resolved := f r.resolved })
      (fun _ => rfl) tame,
    fun w w' o h => h.record _, fun _ _ no => no.elim, fun _ _ no => no.elim⟩, same,
    fun w w' h => (h.context i).2.catalog,
    fun w w' h => adjust w w' h (fun r => { r with calls := r.calls + 1 }) (fun _ => rfl)
      (h.context i).2.resolved,
    fun e w w' h => h.record _⟩

theorem recordSite_common [Inhabited ρ] (access : Access) (i : Nat) :
    (recordSite (ρ := ρ) access i).Common Alike InMemory := by
  have memory (w : World ρ) : (recordSite access i).settings w =
      w.memory.records.getD i (Kept.blank (σ := Step ρ)).settings := by
    simp [recordSite, World.memory, Array.getD_eq_getD_getElem?, Option.getD_map]
  have there {w : World ρ} {s : Settings (Step ρ) ρ} (found : w.memory.records[i]? = some s) :
      (recordSite access i).settings w = s := (memory w).trans (getD_of_getElem? found _)
  refine settingsSite_common (fun _ _ => rfl) (fun _ => rfl) (fun w w' h => ?_)
    (fun w w' h => ?_) fun w w' f h tame => ?_
  · rw [memory, memory, h.memory]
  · cases found : w.memory.records[i]? with
    | none =>
      rw [memory, Array.getD_eq_getD_getElem?, found]
      exact Observable.tame_new _
    | some s => exact there found ▸ h.tame.records i s found
  · exact h.modifyRecord i f (fun _ => rfl) fun s found => there found ▸ tame

end Session

end LiveState
