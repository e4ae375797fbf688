import LiveState.Session.Medium

/-!
# Sites of a session

Where the records of a session, and the settings and panels of its contexts, are found.
-/

namespace LiveState.Session

variable {ρ : Type} [Inhabited ρ]

def recordSite (access : Access) (i : Nat) : Settings.Site (World ρ) (Step ρ) ρ where
  settings w := (w.records.getD i .blank).settings
  adjust f w :=
    { w with records := w.records.modify i fun k => { k with settings := f k.settings } }
  note e := World.note (.settings i e)
  store := access.store

def contextSettingsSite (access : Access) (i : Nat) :
    Settings.Site (World ρ) (Step ρ) UserSettings where
  settings w := (w.contexts.getD i .blank).settings.settings
  adjust f w :=
    { w with contexts := w.contexts.modify i fun c =>
      { c with settings := { c.settings with settings := f c.settings.settings } } }
  note e := World.note (.contextSettings i e)
  store := access.store

def contextPanelsSite (i : Nat) : Registry.Site (World ρ) (Step ρ) Panel where
  registry w := (w.contexts.getD i .blank).panels
  adjust f w :=
    { w with contexts := w.contexts.modify i fun c => { c with panels := f c.panels } }
  note e := World.note (.contextPanels i e)

def World.recordAccess (w : World ρ) (i : Nat) : Access := (w.records.getD i .blank).access

def World.contextAccess (w : World ρ) (i : Nat) : Access :=
  (w.contexts.getD i .blank).settings.access

end LiveState.Session
