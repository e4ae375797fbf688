import LiveState.Proofs.Session.Budget

/-! # Sessions end

The budget of a session is never used up: no more steps begin than its steps weigh, and a larger
budget would make no difference.
-/

namespace LiveState.Session

open Course

variable {ρ : Type}

/-! ## Weights -/

theorem stepsWeight_eq (steps : List (Step ρ)) :
    stepsWeight steps = (steps.map Step.weight).sum :=
  eq_sum_map (by simp [stepsWeight]) (fun _ _ => by simp [stepsWeight]) steps

theorem settingsRulesWeight_eq (name : String) (rules : List (Rule (Step ρ) ρ)) :
    settingsRulesWeight rules = (Listener.script name rules).funds Step.weight := by
  refine Listener.eq_funds rfl (fun r rest => ?_) name rules
  cases r
  simp [settingsRulesWeight, settingsRuleWeight, stepsWeight_eq]

theorem contextSettingsRulesWeight_eq (name : String) (rules : List (Rule (Step ρ) UserSettings)) :
    contextSettingsRulesWeight rules = (Listener.script name rules).funds Step.weight := by
  refine Listener.eq_funds rfl (fun r rest => ?_) name rules
  cases r
  simp [contextSettingsRulesWeight, contextSettingsRuleWeight, stepsWeight_eq]

theorem contextPanelsRulesWeight_eq (name : String)
    (rules : List (Rule (Step ρ) (Resolved Panel))) :
    contextPanelsRulesWeight rules = (Listener.script name rules).funds Step.weight := by
  refine Listener.eq_funds rfl (fun r rest => ?_) name rules
  cases r
  simp [contextPanelsRulesWeight, contextPanelsRuleWeight, stepsWeight_eq]

theorem weight_settings (name : String) (action : Settings.Action (Step ρ) ρ) :
    (Step.settings name action).weight = 1 + action.cost Step.weight := by
  rcases action with (_ | _ | _ | _ | _ | _ | _ | ⟨name, rules⟩) | _ | _ | _ | _ <;>
    simp [Step.weight, settingsWeight, Settings.Action.cost, Observable.Action.cost, stepsWeight_eq,
      settingsRulesWeight_eq name]

theorem weight_contextSettings (name : String) (action : Settings.Action (Step ρ) UserSettings) :
    (Step.contextSettings name action).weight = 1 + action.cost Step.weight := by
  rcases action with (_ | _ | _ | _ | _ | _ | _ | ⟨name, rules⟩) | _ | _ | _ | _ <;>
    simp [Step.weight, contextSettingsWeight, Settings.Action.cost, Observable.Action.cost,
      stepsWeight_eq, contextSettingsRulesWeight_eq name]

theorem weight_contextPanels (name : String) (action : Registry.Action (Step ρ) Panel) :
    (Step.contextPanels name action).weight = 1 + action.cost Step.weight := by
  cases action with
  | resolved action =>
    rcases action with _ | _ | _ | _ | _ | _ | _ | ⟨name, rules⟩ <;>
      simp [Step.weight, contextPanelsWeight, Registry.Action.cost, Observable.Action.cost,
        stepsWeight_eq, contextPanelsRulesWeight_eq name]
  | _ => rfl

theorem Step.weight_pos (s : Step ρ) : 0 < s.weight := by
  unfold Step.weight
  split <;> omega

/-! ## The account of a session -/

def World.begun (w : World ρ) : Nat := w.journal.toList.countP Event.isBegan

theorem begun_record (e : Line ρ) (w : World ρ) :
    (w.record e).begun = w.begun + if e.isBegan then 1 else 0 :=
  countP_isBegan_push w.journal e

/-- How many steps the rules of the subscribers of a record may still set off. -/
def Kept.funds (k : Kept (Step ρ) ρ) : Nat := k.settings.value.funds Step.weight

/-- How many steps the rules of the subscribers of a context may still set off. -/
def Context.funds (c : Context (Step ρ)) : Nat :=
  c.settings.settings.value.funds Step.weight + c.panels.resolved.funds Step.weight

/-- How many steps the rules of all subscribers may still set off. -/
def World.funds (w : World ρ) : Nat :=
  (w.records.toList.map Kept.funds).sum + (w.contexts.toList.map Context.funds).sum

/-- The subscribers of a context keep their bodies, and its factories set off no steps. -/
structure Context.Keeps (c c' : Context (Step ρ)) : Prop where
  settings : c.settings.settings.value.Kept c'.settings.settings.value
  panels : c.panels.resolved.Kept c'.panels.resolved
  catalog : c.panels.catalog.Within (fun _ => False) → c'.panels.catalog.Within fun _ => False

theorem Context.Keeps.refl (c : Context (Step ρ)) : c.Keeps c :=
  ⟨.of_callback fun _ => rfl, .of_callback fun _ => rfl, id⟩

theorem Context.Keeps.trans {c c' c'' : Context (Step ρ)} (h : c.Keeps c') (k : c'.Keeps c'') :
    c.Keeps c'' :=
  ⟨h.settings.trans k.settings, h.panels.trans k.panels, k.catalog ∘ h.catalog⟩

variable [Inhabited ρ]

def account (ρ : Type) [Inhabited ρ] : Account (World ρ) where
  spent := World.begun
  funds := World.funds
  fair w := ∀ i, (w.contextAt i).panels.catalog.Within fun _ => False
  keeps w w' :=
    (∀ i, (w.records.getD i .blank).settings.value.Kept (w'.records.getD i .blank).settings.value) ∧
      ∀ i, (w.contextAt i).Keeps (w'.contextAt i)
  refl _ := ⟨fun _ => .of_callback fun _ => rfl, fun _ => .refl _⟩
  trans h k := ⟨fun i => (h.1 i).trans (k.1 i), fun i => (h.2 i).trans (k.2 i)⟩
  remains h fair i := (h.2 i).catalog (fair i)

/-- Changing one entry changes one summand.  There is nothing to change where there is no entry. -/
theorem sum_modify_le {κ : Type} (g : κ → Nat) {blank : κ} (none : g blank = 0) (xs : Array κ)
    (i : Nat) (f : κ → κ) :
    ((xs.modify i f).toList.map g).sum + g (xs.getD i blank) ≤
      (xs.toList.map g).sum + g (f (xs.getD i blank)) := by
  rw [Array.toList_modify]
  by_cases small : i < xs.size
  · have here : xs.toList[i]? = some (xs.getD i blank) := by simp [Array.getD, small]
    exact Nat.le_of_eq (sum_map_modify here f g)
  · rw [List.modify_eq_self (by simpa using small)]
    simp [Array.getD, small, none]

/-- What is true of every entry and the same entry remains true if the changed one keeps to it. -/
theorem getD_modify_of_refl {κ : Type} {R : κ → κ → Prop} (refl : ∀ x, R x x) {xs : Array κ}
    {i : Nat} {f : κ → κ} {blank : κ} (here : R (xs.getD i blank) (f (xs.getD i blank))) (j : Nat) :
    R (xs.getD j blank) ((xs.modify i f).getD j blank) := by
  by_cases same : j = i
  · subst same
    by_cases small : j < xs.size
    · rwa [getD_modify small]
    · have missed : (xs.modify j f).getD j blank = xs.getD j blank := by simp [Array.getD, small]
      rw [missed]
      exact refl _
  · rw [getD_modify_of_ne (Ne.symm same)]
    exact refl _

section Changes

variable (w : World ρ) (i : Nat)

theorem funds_modifyRecord (f : Kept (Step ρ) ρ → Kept (Step ρ) ρ) :
    ({ w with records := w.records.modify i f } : World ρ).funds +
        (w.records.getD i .blank).funds ≤
      w.funds + (f (w.records.getD i .blank)).funds := by
  have moved := sum_modify_le Kept.funds (rfl : Kept.blank.funds = 0) w.records i f
  simp only [World.funds]
  omega

omit [Inhabited ρ] in
theorem funds_modify (f : Context (Step ρ) → Context (Step ρ)) :
    ({ w with contexts := w.contexts.modify i f } : World ρ).funds + (w.contextAt i).funds ≤
      w.funds + (f (w.contextAt i)).funds := by
  have moved := sum_modify_le Context.funds (rfl : Context.blank.funds = 0) w.contexts i f
  simp only [World.funds, World.contextAt]
  omega

variable {w i}

theorem keeps_modifyRecord {f : Kept (Step ρ) ρ → Kept (Step ρ) ρ}
    (here : (w.records.getD i .blank).settings.value.Kept
      (f (w.records.getD i .blank)).settings.value) :
    (account ρ).keeps w { w with records := w.records.modify i f } :=
  ⟨getD_modify_of_refl (R := fun k k' : Kept (Step ρ) ρ => k.settings.value.Kept k'.settings.value)
    (fun _ => .of_callback fun _ => rfl) here, fun _ => .refl _⟩

theorem keeps_modify {f : Context (Step ρ) → Context (Step ρ)}
    (here : (w.contextAt i).Keeps (f (w.contextAt i))) :
    (account ρ).keeps w { w with contexts := w.contexts.modify i f } :=
  ⟨fun _ => .of_callback fun _ => rfl, getD_modify_of_refl .refl here⟩

end Changes

theorem recordSite_funded (access : Access) (i : Nat) :
    (recordSite access i).value.Funded (account ρ) Step.weight where
  cell_note _ _ := rfl
  spent_adjust _ _ := rfl
  spent_note _ w := begun_record _ w
  funds_adjust _ w := funds_modifyRecord w i _
  funds_note _ _ := rfl
  keeps_adjust _ _ h := keeps_modifyRecord h
  keeps_note _ w := (account ρ).refl w
  kept h := h.1 i

theorem contextSettingsSite_funded (access : Access) (i : Nat) :
    (contextSettingsSite access i).value.Funded (account ρ) Step.weight where
  cell_note _ _ := rfl
  spent_adjust _ _ := rfl
  spent_note _ w := begun_record _ w
  funds_adjust f w := by
    let panels := (w.contextAt i).panels.resolved.funds Step.weight
    have moved : ((contextSettingsSite access i).value.adjust f w).funds +
          (((contextSettingsSite access i).value.cell w).funds Step.weight + panels) ≤
        w.funds + ((f ((contextSettingsSite access i).value.cell w)).funds Step.weight + panels) :=
      funds_modify w i _
    show World.funds _ + _ ≤ World.funds _ + _
    omega
  funds_note _ _ := rfl
  keeps_adjust _ _ h := keeps_modify ⟨h, .of_callback fun _ => rfl, id⟩
  keeps_note _ w := (account ρ).refl w
  kept h := (h.2 i).settings

theorem contextPanelsSite_funded (i : Nat) :
    (contextPanelsSite i).resolved.Funded (account ρ) Step.weight where
  cell_note _ _ := rfl
  spent_adjust _ _ := rfl
  spent_note _ w := begun_record _ w
  funds_adjust f w := by
    let settings := (w.contextAt i).settings.settings.value.funds Step.weight
    have moved : ((contextPanelsSite i).resolved.adjust f w).funds +
          (settings + ((contextPanelsSite i).resolved.cell w).funds Step.weight) ≤
        w.funds + (settings + (f ((contextPanelsSite i).resolved.cell w)).funds Step.weight) :=
      funds_modify w i _
    show World.funds _ + _ ≤ World.funds _ + _
    omega
  funds_note _ _ := rfl
  keeps_adjust _ _ h := keeps_modify ⟨.of_callback fun _ => rfl, h, id⟩
  keeps_note _ w := (account ρ).refl w
  kept h := (h.2 i).panels

/-- Attended contexts have no factories but those of panels. -/
theorem World.Attended.fair {files : FileTree} {w : World ρ} (h : w.Attended files) :
    (account ρ).fair w := by
  intro i
  by_cases small : i < w.contexts.size
  · rw [(h.attended i small).catalog]
    exact Registry.Catalog.within_panels _
  · rw [World.contextAt, Array.getD, dif_neg small]
    intro key factory found
    cases found

/-! ## What costs nothing -/

section Free

variable {limit floor reserve : Nat}

/-- A change that neither begins a step nor adds rules costs nothing. -/
theorem admits_of_keeps {f : World ρ → World ρ} (funds : ∀ w, (f w).funds ≤ w.funds)
    (begun : ∀ w, (f w).begun = w.begun) (keeps : ∀ w, (account ρ).keeps w (f w)) :
    ((account ρ).course limit floor reserve).Admits f := by
  rintro w ⟨fair, within, above⟩
  refine ⟨⟨(account ρ).remains (keeps w) fair, ?_, ?_⟩, rfl, keeps w⟩
  · have := funds w
    simp only [account, begun] at within ⊢
    omega
  · simp only [account, begun] at above ⊢
    exact above

theorem admits_free {f : World ρ → World ρ} (records : ∀ w, (f w).records = w.records)
    (contexts : ∀ w, (f w).contexts = w.contexts) (begun : ∀ w, (f w).begun = w.begun) :
    ((account ρ).course limit floor reserve).Admits f := by
  refine admits_of_keeps (fun w => ?_) begun fun w => ⟨fun i => ?_, fun i => ?_⟩
  · have same : (f w).funds = w.funds := by rw [World.funds, World.funds, records, contexts]
    exact Nat.le_of_eq same
  · rw [records]
    exact .of_callback fun _ => rfl
  · rw [World.contextAt, World.contextAt, contexts]
    exact .refl _

theorem admits_note (i : Incident ρ) :
    ((account ρ).course limit floor reserve).Admits (World.note i) :=
  admits_free (fun _ => rfl) (fun _ => rfl) fun w => begun_record (.happened i) w

theorem admits_pushRecord (key : String) (default v : ρ) (access : Access) :
    ((account ρ).course limit floor reserve).Admits fun w =>
      { w with records := w.records.push ⟨.new key default v, access⟩ } := by
  refine admits_of_keeps (fun w => ?_) (fun _ => rfl) fun w => ⟨fun i => ?_, fun _ => .refl _⟩
  · simp [World.funds, Kept.funds, Settings.new, Observable.new, Observable.funds]
  · by_cases last : i = w.records.size
    · subst last
      rw [show w.records.getD w.records.size .blank = Kept.blank by simp [Array.getD]]
      exact .of_new
    · rw [getD_push_of_ne last]
      exact .of_callback fun _ => rfl

theorem admits_push (key : String) (default v : UserSettings) (access : Access) :
    ((account ρ).course limit floor reserve).Admits fun w =>
      { w with contexts := w.contexts.push ⟨.new .panels, .new key default v, access⟩ } := by
  refine admits_of_keeps (fun w => ?_) (fun _ => rfl) fun w =>
    ⟨fun _ => .of_callback fun _ => rfl, fun i => ?_⟩
  · simp [World.funds, Context.funds, Settings.new, Registry.new, Observable.new, Observable.funds]
  · by_cases last : i = w.contexts.size
    · subst last
      rw [World.contextAt, World.contextAt, getD_push_self,
        show w.contexts.getD w.contexts.size .blank = Context.blank by simp [Array.getD]]
      exact ⟨.of_new, .of_new, fun _ => Registry.Catalog.within_panels _⟩
    · rw [World.contextAt, World.contextAt, getD_push_of_ne last]
      exact .refl _

theorem mediaFree : MediaFree ((account ρ).course limit floor reserve) where
  media w hw m _ :=
    admits_free (f := fun w => { w with media := m }) (fun _ => rfl) (fun _ => rfl) (fun _ => rfl) w hw
  closed _ := admits_free (fun _ => rfl) (fun _ => rfl) fun _ => rfl
  opened _ u _ medium _ _ hu name :=
    admits_free (f := fun w => { w with storages := w.storages.insert name medium })
      (fun _ => rfl) (fun _ => rfl) (fun _ => rfl) u hu

theorem contextPanelsSite_free (i : Nat) :
    (contextPanelsSite i).Unwatched ((account ρ).course limit floor reserve) := by
  refine ⟨admits_of_keeps (fun w => ?_) (fun _ => rfl) fun w => ?_, fun _ => admits_note _⟩
  -- Counting the calls of the factories changes no subscriber.
  · exact Nat.le_of_add_le_add_right (funds_modify w i fun c =>
      { c with panels := { c.panels with calls := c.panels.calls + 1 } })
  · exact keeps_modify ⟨.of_callback fun _ => rfl, .of_callback fun _ => rfl, id⟩

theorem store_read_free (a : Access) (key : String) :
    ((account ρ).course limit floor reserve).Carries (a.store.read key) (a.store.read key) :=
  store_read_carries (fun _ _ => admits_note _) a key

theorem store_write_free (a : Access) (key : String) (bytes : ByteArray) :
    ((account ρ).course limit floor reserve).Carries (a.store.write key bytes)
      (a.store.write key bytes) :=
  store_write_carries (fun _ => admits_note _) (mediaFree.write_admits a.medium key bytes)

theorem askSubscription_free (name : String) (request : Subscription.Request) :
    ((account ρ).course limit floor reserve).Carries (askSubscription (ρ := ρ) name request)
      (askSubscription name request) :=
  askSubscription_carries_of (fun i => (recordSite_funded _ i).unwatched.unsubscribe)
    (fun i => (contextSettingsSite_funded _ i).unwatched.unsubscribe)
    (fun i => (contextPanelsSite_funded i).unwatched.unsubscribe)
    (fun _ => admits_free (fun _ => rfl) (fun _ => rfl) fun _ => rfl) name request

end Free

/-! ## What steps cost -/

section Steps

variable {limit floor : Nat} {nested nested' : Nested (World ρ) (Step ρ)}

theorem withRecord_affords {cost : Nat} {f f' : Nat → Act (World ρ) (Reply ρ)}
    (k : ∀ i, (account ρ).Affords limit floor cost (f i) (f' i)) (name : String) :
    (account ρ).Affords limit floor cost (withRecord name f) (withRecord name f') := by
  refine .look fun found => ?_
  cases found with
  | none => exact .pure _
  | some i => exact k i

theorem withContext_affords {cost : Nat} {f f' : Nat → Act (World ρ) (Reply ρ)}
    (k : ∀ i, (account ρ).Affords limit floor cost (f i) (f' i)) (name : String) :
    (account ρ).Affords limit floor cost (withContext name f) (withContext name f') := by
  refine .look fun found => ?_
  cases found with
  | none => exact .pure _
  | some i => exact k i

/-- The factories of panels set off no steps, so that nothing is asked of these. -/
theorem contextPanelsSite_builds (i reserve : Nat) :
    (contextPanelsSite i).Builds ((account ρ).course limit floor reserve) nested nested' := by
  have idle : Nested.Carried ((account ρ).course limit floor reserve) (fun _ => False) nested
      nested' := ⟨fun _ _ no => no.elim, fun _ no => no.elim⟩
  exact (contextPanelsSite_free i).builds idle fun _ hw => hw.1 i

theorem contextSettingsSite_copies (access : Access) (i : Nat) (v : UserSettings) :
    (account ρ).Affords limit floor 0 ((contextSettingsSite access i).writeBack v)
      ((contextSettingsSite access i).writeBack v) :=
  .free fun _ => Settings.Site.writeBack_carries (fun _ => admits_note _) (store_write_free access) v

theorem recordSite_copies [Settings.Record ρ] (access : Access) (i : Nat) (v : ρ) :
    (account ρ).Affords limit floor 0 ((recordSite access i).writeBack v)
      ((recordSite access i).writeBack v) :=
  .free fun _ => Settings.Site.writeBack_carries (fun _ => admits_note _) (store_write_free access) v

variable (acts : ∀ name t, (account ρ).Affords limit floor (Step.weight t) (nested.act name t)
    (nested'.act name t))
include acts

theorem makeContext_free (reserve : Nat) (access : Access) :
    ((account ρ).course limit floor reserve).Carries (makeContext nested access)
      (makeContext nested' access) := by
  refine Settings.load_carries_of_keeps (store_read_free access _) (fun _ => admits_note _)
    fun v skip => Carries.bind (Carries.look fun w hw => ?_) fun i => Carries.bind ?_ fun _ =>
      carries_pure i
  · exact ((admits_push _ _ v access).carries w hw).bind fun _ u _ hu => .pure hu _
  · exact (Settings.Site.keep_affords (contextSettingsSite_funded access i) acts
      (contextSettingsSite_copies access i) skip).carries reserve

theorem loadRecord_free [Settings.Record ρ] (reserve : Nat) (access : Access) (key : String)
    (default : ρ) :
    ((account ρ).course limit floor reserve).Carries (loadRecord nested access key default)
      (loadRecord nested' access key default) := by
  refine Settings.load_carries_of_keeps (store_read_free access key) (fun _ => admits_note _)
    fun v skip => Carries.bind (Carries.look fun w hw => ?_) fun i => Carries.bind ?_ fun _ =>
      carries_pure i
  · exact ((admits_pushRecord key default v access).carries w hw).bind fun _ u _ hu => .pure hu _
  · exact (Settings.Site.keep_affords (recordSite_funded access i) acts (recordSite_copies access i)
      skip).carries reserve

theorem execute_free (reserve : Nat) (access : Access) (i : Nat) (command : Command) :
    ((account ρ).course limit floor reserve).Carries
      (command.execute (contextPanelsSite i) (contextSettingsSite access i) nested)
      (command.execute (contextPanelsSite i) (contextSettingsSite access i) nested') := by
  refine Command.execute_carries (fun _ => admits_note _) (fun kind => ?_) (fun v => ?_) command
  · exact (contextPanelsSite_free i).addKind (contextPanelsSite_builds i reserve)
      ((contextPanelsSite_funded i).unwatched.set (Registry.Site.served (contextPanelsSite_funded i)
        acts reserve)) kind
  · exact (contextSettingsSite_funded access i).unwatched.set (Settings.Site.served
      (contextSettingsSite_funded access i) acts (contextSettingsSite_copies access i) reserve) v

end Steps

variable [Settings.Record ρ] [Text.Describe ρ]

theorem accounted : (language ρ).Accounted (account ρ) Step.weight where
  positive := Step.weight_pos
  began_spent s w := begun_record (.began s) w
  did_spent name s r w := begun_record (.did name s r) w
  inner_spent s r w := begun_record (.inner s r) w
  funds _ _ := rfl
  keeps _ w := (account ρ).refl w
  perform limit floor nested nested' s acts insides := by
    -- Neither a name for a subscription nor a name for a context brings any rules with it.
    have enrols (source : Source) (name : String) (id reserve : Nat) :
        ((account ρ).course limit floor reserve).Admits (World.enrol source name id) :=
      admits_free (fun _ => rfl) (fun _ => rfl) fun _ => rfl
    have named (f : World ρ → OrderedMap String Nat) (reserve : Nat) :
        ((account ρ).course limit floor reserve).Admits fun w =>
          World.settle { w with contextNames := f w } :=
      mediaFree.settle.comp (admits_free (fun _ => rfl) (fun _ => rfl) fun _ => rfl)
    -- Only actions on observables set steps off, and pay for these from the weight; the rest is
    -- free.
    cases s with
    | subscription name request => exact .free fun _ => (askSubscription_free name request).map _
    | panic => exact .free fun _ => carries_panic
    | file step => exact .free fun _ => mediaFree.fileStep_carries step
    | medium name step => exact .free fun _ => mediaFree.mediumStep_carries name step
    | load name storage key default =>
      refine .free fun reserve => withMedium_carries (fun medium => ?_) storage
      refine (loadRecord_free acts reserve _ key default).bind fun i => Carries.bind ?_ fun _ =>
        (carries_view _).map _
      exact (mediaFree.settle.comp (admits_free
        (f := fun w => { w with recordNames := w.recordNames.insert name i })
        (fun _ => rfl) (fun _ => rfl) fun _ => rfl)).carries
    | settings name action =>
      rw [weight_settings, Nat.add_sub_cancel_left]
      refine withRecord_affords (fun i => .look fun access => ?_) name
      exact (Settings.Action.perform_affords (recordSite_funded access i) acts
        (recordSite_copies access i) insides (enrols _) action).map _
    | context name storage =>
      refine .free fun reserve => withMedium_carries (fun medium => ?_) storage
      exact (makeContext_free acts reserve _).bind fun i => (named _ reserve).carries.bind fun _ =>
        carries_pure _
    | bootstrap name config =>
      refine .free fun reserve => (mediaFree.bootstrap_carries (fun _ => admits_note _)
        (makeContext_free acts reserve) config).bind fun i => (named _ reserve).carries.bind fun _ =>
          carries_pure _
    | drop name =>
      refine .free fun reserve => Carries.bind ?_ fun _ => carries_pure _
      exact (mediaFree.settle.comp (admits_free
        (f := fun w => { w with
          recordNames := w.recordNames.erase name
          contextNames := w.contextNames.erase name })
        (fun _ => rfl) (fun _ => rfl) fun _ => rfl)).carries
    | contextSettings name action =>
      rw [weight_contextSettings, Nat.add_sub_cancel_left]
      refine withContext_affords (fun i => .look fun access => ?_) name
      exact (Settings.Action.perform_affords (contextSettingsSite_funded access i) acts
        (contextSettingsSite_copies access i) insides (enrols _) action).map _
    | contextPanels name action =>
      rw [weight_contextPanels, Nat.add_sub_cancel_left]
      refine withContext_affords (fun i => ?_) name
      exact (Registry.Action.perform_affords (contextPanelsSite_funded i) acts
        (fun _ => contextPanelsSite_free i) (contextPanelsSite_builds i) insides (enrols _)
        action).map _
    | describe name pretty =>
      exact .free fun _ => Loose.withContext_carries (fun i => Carries.look fun w hw => .pure hw _) name
    | execute name command room =>
      show (account ρ).Affords limit floor 0 (perform nested (.execute name command room))
        (perform nested' (.execute name command room))
      rw [perform_execute, perform_execute]
      refine .free fun reserve => Loose.withContext_carries (fun i => Carries.look fun w hw => ?_) name
      exact (execute_free acts reserve _ i command w hw).bind fun _ _ _ hv => .pure hv _

/-! ## Runs -/

/-- A step is cut short only by a budget that is less than what it may set off, together with the
    rules of the subscribers. -/
theorem World.Attended.lt_of_exhausted {files : FileTree} {w w' : World ρ} (h : w.Attended files)
    {budget : Nat} {s : Step ρ}
    (cut : ((language ρ).exec budget s).perform w = (.error .exhausted, w')) :
    budget < w.funds + s.weight := by
  refine Nat.lt_of_not_le fun enough => ?_
  have whole := accounted.exec_whole h.fair enough
  rw [cut] at whole
  cases whole

/-- Sessions end: no step is cut short, whatever its callbacks set off, more budget makes no
    difference, and no more steps begin than the session weighs. -/
theorem session_ends (files : FileTree) (steps : List (Step ρ)) :
    (∀ o ∈ (run files steps).1, Act.isExhausted o.ending = false) ∧
      (∀ extra, (language ρ).run (stepsWeight steps + extra) steps (World.start files) =
        run files steps) ∧
      (run files steps).2.begun ≤ stepsWeight steps := by
  have within : (account ρ).spent (World.start files) + (account ρ).funds (World.start files) +
      (steps.map Step.weight).sum ≤ stepsWeight steps := by
    rw [stepsWeight_eq]
    simp [account, World.start, World.begun, World.funds]
  have ran (extra : Nat) := accounted.run extra (World.Attended.start files).fair
    (Nat.le_add_right (stepsWeight steps) _) within
  exact ⟨(ran 0).1, fun extra => (ran extra).2.1, Nat.le_trans (Nat.le_add_right _ _) (ran 0).2.2⟩

end LiveState.Session
