import Mathlib.Data.List.Induction
import LiveState.Program

/-! # What log filters show

Which directive of a filter decides about a target, and what a run shows whose filter comes from
its environment: parts that are no directives are left out, and the default counts only if no
directive is left.
-/

namespace LiveState

namespace Directive

/-- Whether a directive shows notices of a level, to which it applies. -/
def Shows (d : Directive) (level : Level) : Prop :=
  ∃ most, d.level = some most ∧ level.rank ≤ most.rank

/-- `d` decides about a target: it applies, no other directive that applies is more specific, and
    none that comes later is as specific. -/
def Decides (ds : List Directive) (target : String) (d : Directive) : Prop :=
  ∃ before after, ds = before ++ d :: after ∧ d.applies target = true ∧
    (∀ e ∈ before, e.applies target = true → e.specificity ≤ d.specificity) ∧
    ∀ e ∈ after, e.applies target = true → e.specificity < d.specificity

/-! ## Cuts -/

theorem trim_prefix {c : Char} {s : List Char} (h : Text.isWhiteSpace c = false) :
    Text.trim (c :: s) <+: c :: s := by
  have front : (c :: s).dropWhile Text.isWhiteSpace = c :: s := by simp [h]
  rw [Text.trim, front, ← List.reverse_suffix, List.reverse_reverse]
  exact List.dropWhile_suffix _

theorem eq_name_append (cs : List Char) (h : (cs.takeWhile (· != '=')).length ≠ cs.length) :
    ∃ rest, cs = cs.takeWhile (· != '=') ++ '=' :: rest := by
  cases left : cs.dropWhile (· != '=') with
  | nil =>
    have whole := List.takeWhile_append_dropWhile (p := (· != '=')) (l := cs)
    rw [left, List.append_nil] at whole
    exact absurd (congrArg List.length whole) h
  | cons sign rest => exact ⟨rest, Text.eq_takeWhile_append left⟩

/-- A directive that begins with no white space is cut where its characters end. -/
theorem parse_ne_splitCharacter {c : Char} {s : List Char} (h : Text.isWhiteSpace c = false) :
    parse (c :: s) ≠ .error .splitCharacter := by
  obtain ⟨tail, whole⟩ := trim_prefix (s := s) h
  rw [parse]
  cases trimmed : Text.trim (c :: s) with
  | nil => simp
  | cons d ds =>
    rw [trimmed] at whole
    simp only
    split
    · simp
    · split
      · split <;> simp
      · next longer =>
        obtain ⟨rest, signed⟩ := eq_name_append ds (by simpa using longer)
        generalize ds.takeWhile (· != '=') = name at signed
        subst signed
        -- The name begins the text, and the equals sign after it is one byte long.
        have before : c :: s = (d :: name) ++ ('=' :: rest ++ tail) := by simpa using whole.symm
        have after : c :: s = (d :: name ++ ['=']) ++ (rest ++ tail) := by simpa using before
        have place : Text.byteLength (d :: name ++ ['=']) = Text.byteLength (d :: name) + 1 := by
          rw [Text.byteLength_append]
          rfl
        have target := Text.splitBytes?_append (d :: name) ('=' :: rest ++ tail)
        have level := Text.splitBytes?_append (d :: name ++ ['=']) (rest ++ tail)
        rw [← before] at target
        rw [← after, place] at level
        simp only [target, level]
        cases rest ++ tail with
        | nil => simp
        | cons e text =>
          simp only
          split <;> simp

/-! ## The deciding directive -/

section Deciding

variable {ds : List Directive} {target : String} {d : Directive}

theorem foldl_moreSpecific (d : Directive) (ds : List Directive) :
    ∃ before after, d :: ds = before ++ ds.foldl LogFilter.moreSpecific d :: after ∧
      (∀ e ∈ before, e.specificity ≤ (ds.foldl LogFilter.moreSpecific d).specificity) ∧
      ∀ e ∈ after, e.specificity < (ds.foldl LogFilter.moreSpecific d).specificity := by
  -- From the right, since the last of the equally specific directives wins.
  induction ds using List.reverseRecOn with
  | nil => exact ⟨[], [], rfl, by simp, by simp⟩
  | append_singleton ds next ih =>
    obtain ⟨before, after, whole, least, less⟩ := ih
    rw [List.foldl_append, List.foldl_cons, List.foldl_nil, LogFilter.moreSpecific]
    generalize ds.foldl LogFilter.moreSpecific d = best at whole least less
    split
    · next later =>
      refine ⟨before ++ best :: after, [], ?_, ?_, by simp⟩
      · rw [← List.cons_append, whole]
      · intro e he
        rw [List.mem_append, List.mem_cons] at he
        rcases he with early | rfl | late
        · exact Nat.le_trans (least e early) later
        · exact later
        · exact Nat.le_trans (Nat.le_of_lt (less e late)) later
    · next earlier =>
      refine ⟨before, after ++ [next], ?_, least, ?_⟩
      · rw [← List.cons_append, whole, List.append_assoc, List.cons_append]
      · intro e he
        rw [List.mem_append, List.mem_singleton] at he
        rcases he with late | rfl
        · exact less e late
        · exact Nat.lt_of_not_le earlier

/-- Directives that do not apply have no part in the decision. -/
theorem decides_of_filter {before after : List Directive}
    (split : ds.filter (·.applies target) = before ++ d :: after)
    (least : ∀ e ∈ before, e.specificity ≤ d.specificity)
    (less : ∀ e ∈ after, e.specificity < d.specificity) : Decides ds target d := by
  obtain ⟨front, back, rfl, early, late⟩ := List.filter_eq_append_iff.1 split
  obtain ⟨idle, rest, rfl, none, applies, later⟩ := List.filter_eq_cons_iff.1 late
  refine ⟨front ++ idle, rest, by simp, applies, ?_, ?_⟩
  · intro e he on
    rcases List.mem_append.1 he with he | he
    · exact least e (early ▸ List.mem_filter.2 ⟨he, on⟩)
    · exact absurd on (none e he)
  · intro e he on
    exact less e (later ▸ List.mem_filter.2 ⟨he, on⟩)

theorem deciding?_of_applies (h : ∃ d ∈ ds, d.applies target = true) :
    ∃ d, LogFilter.deciding? ⟨ds⟩ target = some d ∧ Decides ds target d := by
  obtain ⟨d, hd, applies⟩ := h
  rw [LogFilter.deciding?]
  cases on : ds.filter (·.applies target) with
  | nil => exact absurd applies (List.filter_eq_nil_iff.1 on d hd)
  | cons first rest =>
    obtain ⟨before, after, split, least, less⟩ := foldl_moreSpecific first rest
    exact ⟨_, rfl, decides_of_filter (on.trans split) least less⟩

theorem deciding?_of_not_applies (h : ∀ d ∈ ds, d.applies target = false) :
    LogFilter.deciding? ⟨ds⟩ target = none := by
  have none : ds.filter (·.applies target) = [] := List.filter_eq_nil_iff.2 (by simpa using h)
  rw [LogFilter.deciding?, none]

end Deciding

end Directive

namespace LogFilter

/-! ## Sifting -/

/-- The directives among the parts of a text. -/
def readable (ps : List (List Char)) : List Directive :=
  ps.filterMap fun p => (Directive.parse p).toOption

/-- The parts that are no directives, with what is wrong with them. -/
def rejections (ps : List (List Char)) : List (String × DirectiveError) :=
  ps.filterMap fun p =>
    match Directive.parse p with
    | .ok _ => none
    | .error e => some (String.ofList p, e)

/-- The parts are told apart, unless one of them is cut inside a character. -/
theorem sift_eq {ps : List (List Char)}
    (whole : ∀ p ∈ ps, Directive.parse p ≠ .error .splitCharacter) :
    sift ps = ⟨readable ps, rejections ps, false⟩ := by
  induction ps with
  | nil => rfl
  | cons p ps ih =>
    rw [List.forall_mem_cons] at whole
    obtain ⟨here, later⟩ := whole
    simp only [sift, ih later, readable, rejections, List.filterMap_cons]
    cases read : Directive.parse p with
    | ok d => rfl
    | error e =>
      cases e with
      | splitCharacter => exact absurd read here
      | malformed => rfl
      | unknownLevel => rfl

theorem broken_sift {ps : List (List Char)} {p : List Char} (hp : p ∈ ps)
    (cut : Directive.parse p = .error .splitCharacter) : (sift ps).broken = true := by
  induction ps with
  | nil => cases hp
  | cons q ps ih =>
    rw [sift]
    rcases List.mem_cons.1 hp with rfl | hp
    · rw [cut]
    · have rest := ih hp
      cases Directive.parse q with
      | ok d => exact rest
      | error e => cases e <;> first | rfl | exact rest

/-! ## What is shown -/

variable {ds : List Directive} {target : String} {level : Level}

theorem shows_iff_of_deciding? {d : Directive} (decides : deciding? ⟨ds⟩ target = some d) :
    shows ⟨ds⟩ target level = true ↔ d.Shows level := by
  rw [shows, decides, Option.bind_some, Directive.Shows]
  cases d.level with
  | none => simp
  | some most => simp

theorem shows_of_deciding?_eq_none (undecided : deciding? ⟨ds⟩ target = none) :
    shows ⟨ds⟩ target level = false := by
  rw [shows, undecided]
  rfl

end LogFilter

namespace Program

open LogFilter

theorem shows_default (target : String) (level : Level) :
    shows ⟨[defaultDirective]⟩ target level = true ↔ level = .error ∨ level = .warn := by
  have decides : deciding? ⟨[defaultDirective]⟩ target = some defaultDirective := rfl
  rw [shows_iff_of_deciding? decides]
  cases level <;> simp [Directive.Shows, defaultDirective, Level.rank]

/-- When the command line has no filter, the parts of the text in the environment that are no
    directives are left out, each with a line about it, and the others make up the filter: of those
    that apply to a target, the most specific one decides.  A target that none applies to is shown
    with its warnings and errors if no directive is left at all, and else not at all.  There is no
    filter only if a part begins with white space and is therefore cut inside a character. -/
theorem surrounding_filter_decides (text : Option String) :
    let ps := parts (text.getD "")
    (∃ filter, chooseFilter none text = .ok (filter, (rejections ps).map rejectionLine) ∧
      ∀ target,
        ((∃ d ∈ readable ps, d.applies target = true) →
          ∃ d, Directive.Decides (readable ps) target d ∧
            ∀ level, filter.shows target level = true ↔ d.Shows level) ∧
        ((∀ d ∈ readable ps, d.applies target = false) →
          ∀ level, filter.shows target level = true ↔
            readable ps = [] ∧ (level = .error ∨ level = .warn))) ∨
    (∃ c s, c :: s ∈ ps ∧ Text.isWhiteSpace c = true ∧
        Directive.parse (c :: s) = .error .splitCharacter) ∧
      ∃ earlier, chooseFilter none text = .error (.brokenDown earlier) := by
  intro ps
  by_cases cut : ∃ p ∈ ps, Directive.parse p = .error .splitCharacter
  · right
    obtain ⟨p, hp, broken⟩ := cut
    constructor
    · cases p with
      | nil => cases broken
      | cons c s =>
        refine ⟨c, s, hp, ?_, broken⟩
        by_contra solid
        exact Directive.parse_ne_splitCharacter (Bool.not_eq_true _ ▸ solid) broken
    · refine ⟨(sift ps).rejected.map rejectionLine, ?_⟩
      rw [chooseFilter]
      show (if (sift ps).broken then _ else _) = _
      rw [broken_sift hp broken, if_pos rfl]
  · left
    have whole : ∀ p ∈ ps, Directive.parse p ≠ .error .splitCharacter :=
      fun p hp broken => cut ⟨p, hp, broken⟩
    refine ⟨⟨if (readable ps).isEmpty then [defaultDirective] else readable ps⟩, ?_, ?_⟩
    · rw [chooseFilter, sift_eq whole]
      rfl
    · intro target
      constructor
      · intro some
        obtain ⟨d, decides, specific⟩ := Directive.deciding?_of_applies some
        refine ⟨d, specific, fun level => ?_⟩
        -- A directive that applies is left, so that the default does not count.
        have left : (readable ps).isEmpty = false := by
          obtain ⟨e, he, -⟩ := some
          exact List.isEmpty_eq_false_iff_exists_mem.2 ⟨e, he⟩
        rw [left]
        exact shows_iff_of_deciding? decides
      · intro none level
        cases left : readable ps with
        | nil => simpa using shows_default target level
        | cons d ds =>
          rw [left] at none
          have undecided := Directive.deciding?_of_not_applies none
          simp [shows_of_deciding?_eq_none undecided]

/-- A directive about one target hides the warnings of all others. -/
theorem warning_hidden :
    ∃ filter, chooseFilter none (some "seek::commands=debug") = .ok (filter, []) ∧
      readable (parts "seek::commands=debug") = [⟨some "seek::commands", some .debug⟩] ∧
      Directive.applies ⟨some "seek::commands", some .debug⟩ "seek_core::context" = false ∧
      filter.shows "seek_core::context" .warn = false := by
  have one : parts "seek::commands=debug" = ["seek::commands=debug".toList] := by decide
  have read : Directive.parse "seek::commands=debug".toList =
      .ok ⟨some "seek::commands", some .debug⟩ := by decide +kernel
  have left : readable (parts "seek::commands=debug") =
      [⟨some "seek::commands", some .debug⟩] := by
    rw [one, readable, List.filterMap_cons, read]
    rfl
  refine ⟨⟨[⟨some "seek::commands", some .debug⟩]⟩, ?_, left, by decide, by decide⟩
  rw [chooseFilter]
  simp only [Option.getD_some, one, sift, read]
  rfl

end Program

end LiveState
