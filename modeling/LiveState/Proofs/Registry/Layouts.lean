import LiveState.Registry.Basic

/-! # Layouts

What becomes of a layout of panels when kinds are mounted by their names, one after the other.
-/

namespace LiveState

namespace PanelKind

/-- The names of all kinds, in the order of the catalog. -/
def names : List String := all.map name

theorem ofName?_eq_none {s : String} : ofName? s = none ↔ s ∉ names := by
  simp [ofName?, names]

theorem mem_names {s : String} {k : PanelKind} (h : ofName? s = some k) : s ∈ names :=
  List.mem_map.2 ⟨k, mem_all k, name_eq_of_ofName? h⟩

end PanelKind

/-- A layout that has come about by mounting kinds of panels and taking kinds out. -/
inductive PanelLayout : Resolved Panel → Prop
  | empty : PanelLayout .empty
  | mounted {m : Resolved Panel} (kind : PanelKind) (number : Nat) :
    PanelLayout m → PanelLayout (m.insert kind.name (kind.build number))
  | removed {m : Resolved Panel} (key : String) : PanelLayout m → PanelLayout (m.erase key)

namespace PanelLayout

theorem forall_mem_put {κ β : Type} [DecidableEq κ] {P : κ × β → Prop} {k : κ} {v : β}
    {es : List (κ × β)} (h : ∀ e ∈ es, P e) (new : P (k, v)) :
    ∀ e ∈ OrderedMap.put k v es, P e := by
  induction es with
  | nil => simpa [OrderedMap.put] using new
  | cons e es ih =>
    obtain ⟨first, rest⟩ := List.forall_mem_cons.1 h
    rw [OrderedMap.put]
    split
    · exact List.forall_mem_cons.2 ⟨new, rest⟩
    · exact List.forall_mem_cons.2 ⟨first, ih rest⟩

theorem named {m : Resolved Panel} (h : PanelLayout m) : ∀ e ∈ m.entries, e.2.kind.name = e.1 := by
  induction h with
  | empty => exact nofun
  | mounted kind number _ ih => exact forall_mem_put ih rfl
  | removed key _ ih => exact fun e there => ih e (List.mem_filter.1 there |>.1)

theorem keys_eq {m : Resolved Panel} (h : PanelLayout m) :
    m.keys = (m.entries.map (·.2.kind)).map PanelKind.name := by
  rw [OrderedMap.keys, List.map_map]
  exact (List.map_congr_left h.named).symm

end PanelLayout

/-! ## Mounting kinds by their names -/

/-- The layout after panels have been mounted by these names.  The first of them has the number
    after `calls`. -/
def mountAll : List String → Nat → Resolved Panel → Resolved Panel
  | [], _, m => m
  | name :: names, calls, m =>
    match PanelKind.ofName? name with
    | some kind => mountAll names (calls + 1) (m.insert kind.name (kind.build (calls + 1)))
    | none => mountAll names calls m

/-- How many panels are mounted by these names. -/
def mentions (names : List String) : Nat := names.countP (· ∈ PanelKind.names)

theorem mountAll_known {name : String} {kind : PanelKind}
    (known : PanelKind.ofName? name = some kind)
    (names : List String) (calls : Nat) (m : Resolved Panel) :
    mountAll (name :: names) calls m =
      mountAll names (calls + 1) (m.insert name (kind.build (calls + 1))) := by
  rw [mountAll, known, ← PanelKind.name_eq_of_ofName? known]

theorem mountAll_unknown {name : String} (unknown : PanelKind.ofName? name = none)
    (names : List String) (calls : Nat) (m : Resolved Panel) :
    mountAll (name :: names) calls m = mountAll names calls m := by
  rw [mountAll, unknown]

theorem mentions_known {name : String} {kind : PanelKind}
    (known : PanelKind.ofName? name = some kind) (names : List String) :
    mentions (name :: names) = mentions names + 1 := by
  simp [mentions, PanelKind.mem_names known]

theorem mentions_unknown {name : String} (unknown : PanelKind.ofName? name = none)
    (names : List String) : mentions (name :: names) = mentions names := by
  simp [mentions, PanelKind.ofName?_eq_none.1 unknown]

theorem mountAll_append (first second : List String) (calls : Nat) (m : Resolved Panel) :
    mountAll (first ++ second) calls m =
      mountAll second (calls + mentions first) (mountAll first calls m) := by
  induction first generalizing calls m with
  | nil => rfl
  | cons name first ih =>
    cases known : PanelKind.ofName? name with
    | some kind =>
      rw [List.cons_append, mountAll_known known, mountAll_known known, mentions_known known, ih,
        Nat.add_right_comm, Nat.add_assoc]
    | none =>
      rw [List.cons_append, mountAll_unknown known, mountAll_unknown known,
        mentions_unknown known, ih]

/-- What is mounted keeps its place, and what is new comes in the order of its first mention. -/
theorem keys_mountAll (names : List String) (calls : Nat) (m : Resolved Panel) :
    (mountAll names calls m).keys =
      m.keys ++ (names.filter fun n => n ∈ PanelKind.names ∧ n ∉ m.keys).eraseDups := by
  induction names generalizing calls m with
  | nil => simp [mountAll]
  | cons name names ih =>
    cases known : PanelKind.ofName? name with
    | some kind =>
      have named := PanelKind.mem_names known
      rw [mountAll_known known, ih, OrderedMap.keys_insert]
      by_cases there : name ∈ m.keys
      · simp [there]
      -- What is left out from now on is what is mentioned again.
      · have rest : (names.filter fun n => n ∈ PanelKind.names ∧ n ∉ m.keys ++ [name]) =
            (names.filter fun n => n ∈ PanelKind.names ∧ n ∉ m.keys).filter (!· == name) := by
          rw [List.filter_filter]
          refine List.filter_congr fun n _ => ?_
          by_cases same : n = name <;> simp [same]
        rw [if_neg there, rest, List.filter_cons_of_pos (by simp [named, there]),
          List.eraseDups_cons, List.append_assoc, List.singleton_append]
    | none =>
      rw [mountAll_unknown known, ih]
      simp [PanelKind.ofName?_eq_none.1 known]

theorem get?_mountAll_of_not_mem {key : String} {names : List String} (h : key ∉ names)
    (calls : Nat) (m : Resolved Panel) : (mountAll names calls m).get? key = m.get? key := by
  induction names generalizing calls m with
  | nil => rfl
  | cons name names ih =>
    obtain ⟨other, rest⟩ : key ≠ name ∧ key ∉ names := by simpa using h
    cases known : PanelKind.ofName? name with
    | some kind => rw [mountAll_known known, ih rest, OrderedMap.get?_insert_of_ne other]
    | none => rw [mountAll_unknown known, ih rest]

theorem get?_mountAll_last {kind : PanelKind} {later : List String} (last : kind.name ∉ later)
    (earlier : List String) (calls : Nat) (m : Resolved Panel) :
    (mountAll (earlier ++ kind.name :: later) calls m).get? kind.name =
      some (kind.build (calls + mentions earlier + 1)) := by
  rw [mountAll_append, mountAll_known (PanelKind.ofName?_name kind),
    get?_mountAll_of_not_mem last, OrderedMap.get?_insert_self]

/-- What becomes of a layout when panels are mounted by these names, the first of them with the
    number after `calls`. -/
structure MountedBy (names : List String) (calls : Nat) (before after : Resolved Panel) : Prop where
  /-- What was mounted keeps its place, and what is new comes in the order of its first mention. -/
  order : after.keys = before.keys ++
    (names.filter fun n => n ∈ PanelKind.names ∧ n ∉ before.keys).eraseDups
  /-- Every kind that is mentioned has the panel of its last mention. -/
  mentioned : ∀ earlier (kind : PanelKind) later, names = earlier ++ kind.name :: later →
    kind.name ∉ later → after.get? kind.name = some (kind.build (calls + mentions earlier + 1))
  others : ∀ key, key ∉ names → after.get? key = before.get? key

theorem mountedBy_mountAll (names : List String) (calls : Nat) (m : Resolved Panel) :
    MountedBy names calls m (mountAll names calls m) where
  order := keys_mountAll names calls m
  mentioned := by
    rintro earlier kind later rfl last
    exact get?_mountAll_last last earlier calls m
  others _ unmentioned := get?_mountAll_of_not_mem unmentioned calls m

theorem PanelLayout.mountAll {m : Resolved Panel} (h : PanelLayout m) (names : List String)
    (calls : Nat) :
    PanelLayout (mountAll names calls m) := by
  induction names generalizing calls m with
  | nil => exact h
  | cons name names ih =>
    rw [LiveState.mountAll]
    split
    · exact ih (.mounted _ _ h) _
    · exact ih h _

end LiveState
