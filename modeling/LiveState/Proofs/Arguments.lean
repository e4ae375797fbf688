import Mathlib.Data.List.Induction
import LiveState.Arguments
import LiveState.Text.Bytes

/-! # Options anywhere

An option may stand anywhere on a command line, as long as it comes before the two hyphens that
end the options and does not take the place of the value of another option.
-/

namespace LiveState.Arguments

/-! ## Options as words -/

namespace Flag

def name : Flag → String
  | .settings => "settings"
  | .log => "log"

/-- The option and its value in one word. -/
def option (f : Flag) (d : String) : String := "--" ++ f.name ++ "=" ++ d

/-- A word is this option, with its value or without. -/
def Names (f : Flag) (w : String) : Prop := w = "--" ++ f.name ∨ ∃ d, w = f.option d

theorem ofName?_name (f : Flag) : ofName? f.name = some f := by cases f <;> rfl

theorem eq_name_of_ofName? {s : String} {f : Flag} (h : ofName? s = some f) : s = f.name := by
  unfold ofName? at h
  split at h
  · next same => cases h; exact same
  · split at h
    · next same => cases h; exact same
    · cases h

end Flag

namespace Word

theorem ofString_option (f : Flag) (d : String) :
    ofString (f.option d) = .long f.name (some d) := by
  cases f <;> simp [ofString, Flag.option, Flag.name, cutAtEquals]

theorem eq_of_ofString_escape {s : String} (h : ofString s = .escape) : s = "--" := by
  unfold ofString at h
  split at h
  · next two => exact String.toList_inj.1 two
  · cases h
  · cases h
  · cases h

theorem cutAtEquals_none {s name : List Char} (h : cutAtEquals s = (name, none)) : name = s := by
  unfold cutAtEquals at h
  split at h
  · cases h; rfl
  · cases h

theorem cutAtEquals_some {s name value : List Char} (h : cutAtEquals s = (name, some value)) :
    s = name ++ '=' :: value := by
  unfold cutAtEquals at h
  split at h
  · cases h
  · next cut =>
    cases h
    exact Text.eq_takeWhile_append cut

/-- What a word with two hyphens looks like. -/
theorem eq_of_ofString_long {s name : String} {value : Option String}
    (h : ofString s = .long name value) :
    s = "--" ++ name ++ (value.map ("=" ++ ·)).getD "" := by
  unfold ofString at h
  split at h
  · cases h
  · next rest _ two =>
    rcases cut : cutAtEquals rest with ⟨n, v⟩
    rw [cut] at h
    cases h
    apply String.toList_inj.1
    cases v with
    | none => simp [two, cutAtEquals_none cut]
    | some v => simp [two, cutAtEquals_some cut]
  · cases h
  · cases h

theorem eq_of_ofString_plain {s text : String} (h : ofString s = .plain text) : text = s := by
  unfold ofString at h
  split at h <;> cases h
  rfl

def name? : Word → Option String
  | .long name _ => some name
  | _ => none

theorem names_iff {f : Flag} {s : String} : f.Names s ↔ (ofString s).name? = some f.name := by
  constructor
  · rintro (rfl | ⟨d, rfl⟩)
    · cases f <;> rfl
    · rw [ofString_option, name?]
  · intro named
    unfold name? at named
    split at named
    · next value long =>
      cases named
      have shape := eq_of_ofString_long long
      cases value with
      | none => exact .inl (by simpa using shape)
      | some d => exact .inr ⟨d, by simpa [Flag.option, String.append_assoc] using shape⟩
    · cases named

instance (f : Flag) (w : String) : Decidable (f.Names w) := decidable_of_iff _ names_iff.symm

end Word

theorem bind_ok {α β : Type} {m : Except Rejection α} {k : α → Except Rejection β} {b : β}
    (h : m >>= k = .ok b) : ∃ a, m = .ok a ∧ k a = .ok b := by
  cases m with
  | error r => cases h
  | ok a => exact ⟨a, rfl, h⟩

/-! ## Levels -/

namespace Level

variable {l k m : Level} {f g : Flag} {d v w : String}

def value? (l : Level) : Flag → Option String
  | .settings => l.settings
  | .log => l.log

/-- A level with an option given. -/
def put (l : Level) (f : Flag) (d : String) : Level :=
  match f with
  | .settings => { l with settings := some d }
  | .log => { l with log := some d }

@[simp] theorem verb_put : (l.put f d).verb = l.verb := by cases f <;> rfl

@[simp] theorem count_put : (l.put f d).count = l.count := by cases f <;> rfl

@[simp] theorem kinds_put : (l.put f d).kinds = l.kinds := by cases f <;> rfl

@[simp] theorem pending_put : (l.put f d).pending = l.pending := by cases f <;> rfl

@[simp] theorem escaped_put : (l.put f d).escaped = l.escaped := by cases f <;> rfl

@[simp] theorem value?_pending (l : Level) (p : Pending) :
    { l with pending := p }.value? f = l.value? f := by cases f <;> rfl

@[simp] theorem value?_escaped (l : Level) (e : Bool) :
    { l with escaped := e }.value? f = l.value? f := by cases f <;> rfl

@[simp] theorem value?_kinds (l : Level) (ks : List String) :
    { l with kinds := ks }.value? f = l.value? f := by cases f <;> rfl

@[simp] theorem value?_put_self : (l.put f d).value? f = some d := by cases f <;> rfl

theorem value?_put_of_ne (ne : g ≠ f) : (l.put f d).value? g = l.value? g := by
  cases f <;> cases g <;> first | rfl | exact absurd rfl ne

theorem put_put_of_ne (ne : g ≠ f) : (l.put f d).put g v = (l.put g v).put f d := by
  cases f <;> cases g <;> first | rfl | exact absurd rfl ne

theorem give_eq (l : Level) (f : Flag) (v : String) :
    l.give f v =
      if (l.value? f).isSome then .error .argumentConflict
      else if f = .settings ∧ v = "" then .error .invalidValue
      else .ok (l.put f v) := by
  cases f <;> simp [give, value?, put]

theorem give_ok (h : l.give f v = .ok k) :
    k = l.put f v ∧ l.value? f = none ∧ ¬ (f = .settings ∧ v = "") := by
  rw [give_eq] at h
  split at h
  · cases h
  · next free =>
    split at h
    · cases h
    · next filled =>
      cases h
      exact ⟨rfl, by simpa using free, filled⟩

theorem give_of_free (free : l.value? f = none) (filled : ¬ (f = .settings ∧ v = "")) :
    l.give f v = .ok (l.put f v) := by
  rw [give_eq, free, if_neg (by simp), if_neg filled]

theorem give_put (h : l.give g v = .ok k) (free : k.value? f = none) (d : String) :
    (l.put f d).give g v = .ok (k.put f d) := by
  obtain ⟨rfl, new, filled⟩ := give_ok h
  have other : g ≠ f := by
    rintro rfl
    simp at free
  rw [give_of_free (by rwa [value?_put_of_ne other]) filled, put_put_of_ne other]

/-! ### What is pending -/

theorem settle_ok (h : l.settle = .ok k) :
    k.verb = l.verb ∧ k.escaped = l.escaped ∧ k.pending = .nothing := by
  unfold settle at h
  split at h
  · next nothing => cases h; exact ⟨rfl, rfl, nothing⟩
  · cases h
  · obtain ⟨rfl, -⟩ := give_ok h
    simp
  · split at h
    · split at h
      · cases h; exact ⟨rfl, rfl, rfl⟩
      · cases h
    · cases h; exact ⟨rfl, rfl, rfl⟩

theorem settle_put (h : l.settle = .ok k) (free : k.value? f = none) (d : String) :
    (l.put f d).settle = .ok (k.put f d) := by
  unfold settle at h ⊢
  rw [pending_put, verb_put]
  split at h
  · cases h; rfl
  · cases h
  · have given := give_put h free d
    cases f <;> exact given
  · split at h
    · split at h
      · cases h; cases f <;> rfl
      · cases h
    · cases h; cases f <;> rfl

theorem settle_escaped (l : Level) :
    { l with escaped := true }.settle = (fun k => { k with escaped := true }) <$> l.settle := by
  obtain ⟨verb, settings, log, count, kinds, pending, escaped⟩ := l
  rcases pending with _ | ⟨g, _ | v⟩ | ws
  · rfl
  · rfl
  · cases g with
    | settings =>
      simp only [settle, give]
      split
      · rfl
      · split <;> rfl
    | log =>
      simp only [settle, give]
      split <;> rfl
  · simp only [settle]
    split
    · split <;> rfl
    · rfl

theorem settle_waiting (h : l.pending = .flag f none) : l.settle = .error .invalidValue := by
  simp only [settle, h]

theorem settle_nothing (h : l.pending = .nothing) : l.settle = .ok l := by simp only [settle, h]

/-- No option is taken back. -/
theorem value?_of_settle (h : l.settle = .ok k) (free : k.value? f = none) : l.value? f = none := by
  unfold settle at h
  split at h
  · cases h; exact free
  · cases h
  · obtain ⟨rfl, -⟩ := give_ok h
    next g v pending =>
      have other : f ≠ g := by
        rintro rfl
        simp at free
      rw [value?_put_of_ne other] at free
      cases f <;> exact free
  · split at h
    · split at h
      · cases h; cases f <;> exact free
      · cases h
    · cases h; cases f <;> exact free

/-! ### Words -/

theorem word_panels (panels : l.verb = some .panels) (settled : l.settle = .ok k) (w : String) :
    ∃ m, l.word w = .ok m := by
  unfold word
  simp only [panels]
  split
  · exact ⟨_, rfl⟩
  · rw [settled]
    exact ⟨_, rfl⟩

/-- The kinds are the words in their order, wherever something else comes between them. -/
theorem kind_of_word (panels : l.verb = some .panels) (settled : l.settle = .ok k)
    (h : l.word w = .ok m) :
    (∃ ws, m.pending = .words ws) ∧ m.escaped = l.escaped ∧ m.verb = some .panels ∧
      m.settle = .ok { k with kinds := k.kinds ++ [w] } := by
  unfold word at h
  simp only [panels] at h
  split at h
  · next ws pending =>
    simp only [settle, pending, panels] at settled
    cases settled
    cases h
    exact ⟨⟨_, rfl⟩, rfl, rfl, by simp [settle]⟩
  · obtain ⟨verb, escaped, nothing⟩ := settle_ok settled
    rw [settled] at h
    cases h
    exact ⟨⟨_, rfl⟩, escaped, verb.trans panels, by simp [settle, verb, panels, nothing]⟩

/-- How a level takes a word that it understands. -/
inductive Takes (l : Level) (w : String) : Level → Prop
  | escape (here : l.escaped = false) (two : Word.ofString w = .escape) :
      Takes l w { l with escaped := true }
  | given {g : Flag} {v : String} {k m : Level} (here : l.escaped = false)
      (long : Word.ofString w = .long g.name (some v)) (settled : l.settle = .ok k)
      (given : k.give g v = .ok m) : Takes l w m
  | named {g : Flag} {k : Level} (here : l.escaped = false)
      (long : Word.ofString w = .long g.name none) (settled : l.settle = .ok k) :
      Takes l w { k with pending := .flag g none }
  | value {g : Flag} (here : l.escaped = false) (plain : Word.ofString w = .plain w)
      (waits : l.pending = .flag g none) : Takes l w { l with pending := .flag g (some w) }
  | count {k : Level} (plain : l.escaped = true ∨ Word.ofString w = .plain w ∧ l.awaiting = none)
      (verb : l.verb = some .setLimit) (first : l.hasWord = false) (settled : l.settle = .ok k) :
      Takes l w { k with pending := .words [w] }
  | kind {k m : Level} (plain : l.escaped = true ∨ Word.ofString w = .plain w ∧ l.awaiting = none)
      (verb : l.verb = some .panels) (settled : l.settle = .ok k) (taken : l.word w = .ok m) :
      Takes l w m

theorem awaiting_eq_some : l.awaiting = some g ↔ l.pending = .flag g none := by
  unfold awaiting
  split
  · next pending => simp [pending]
  · next other =>
    simp only [reduceCtorEq, false_iff]
    exact other g

theorem takes_of_word (h : l.word w = .ok m)
    (plain : l.escaped = true ∨ Word.ofString w = .plain w ∧ l.awaiting = none) :
    l.Takes w m := by
  have taken := h
  unfold word at h
  split at h
  · split at h <;> cases h
  · cases h
  · cases h
  · next verb =>
    split at h
    · cases h
    · next first =>
      obtain ⟨k, settled, h⟩ := bind_ok h
      cases h
      exact .count plain verb (by simpa using first) settled
  · next verb =>
    split at h
    · next ws pending => exact .kind plain verb (by simp only [settle, pending, verb]; rfl) taken
    · obtain ⟨k, settled, -⟩ := bind_ok h
      exact .kind plain verb settled taken

theorem takes_of_take (h : l.take w = .ok m) : l.Takes w m := by
  -- The tests of `take` in their order; those that reject the word are left over and impossible.
  unfold take at h
  split at h
  · next escaped => exact takes_of_word h (.inl escaped)
  · next here =>
    have here : l.escaped = false := by simpa using here
    split at h
    · next two => cases h; exact .escape here two
    · next name value long =>
      unfold Level.long at h
      split at h
      · next g flag =>
        rw [Flag.eq_name_of_ofName? flag] at long
        obtain ⟨k, settled, h⟩ := bind_ok h
        cases value with
        | some v => exact .given here long settled h
        | none => cases h; exact .named here long settled
      · split at h
        · split at h
          · cases h
          · obtain ⟨k, -, h⟩ := bind_ok h
            cases h
        · cases h
    · unfold Level.short ask at h
      split at h
      · obtain ⟨k, -, h⟩ := bind_ok h
        cases h
      · split at h
        · obtain ⟨k, -, h⟩ := bind_ok h
          cases h
        · cases h
    · next text plain =>
      obtain rfl := Word.eq_of_ofString_plain plain
      split at h
      · next g waits => cases h; exact .value here plain (awaiting_eq_some.1 waits)
      · next free => exact takes_of_word h (.inr ⟨plain, free⟩)

theorem take_of_word (h : l.word w = .ok m)
    (plain : l.escaped = true ∨ Word.ofString w = .plain w ∧ l.awaiting = none) :
    l.take w = .ok m := by
  unfold take
  split
  · exact h
  · next here =>
    obtain escaped | ⟨plain, free⟩ := plain
    · exact absurd escaped here
    · simpa only [plain, free] using h

theorem take_of_takes (h : l.Takes w m) : l.take w = .ok m := by
  cases h with
  | escape here two => simp [take, here, two]
  | given here long settled given =>
    simp only [take, here, long, Level.long, Flag.ofName?_name, settled]
    exact given
  | named here long settled =>
    simp only [take, here, long, Level.long, Flag.ofName?_name, settled]
    rfl
  | value here plain waits =>
    simp [take, here, plain, awaiting_eq_some.2 waits]
  | count plain verb first settled =>
    refine take_of_word ?_ plain
    simp only [word, verb, first, settled]
    rfl
  | kind plain verb settled taken => exact take_of_word taken plain

/-! ### What words leave -/

theorem escaped_of_takes (h : l.Takes w m) : m.escaped = (l.escaped || w == "--") := by
  have same : l.escaped = true ∨ Word.ofString w ≠ .escape →
      l.escaped = (l.escaped || w == "--") := by
    rintro (past | other)
    · simp [past]
    · have : w ≠ "--" := by
        rintro rfl
        exact other rfl
      simp [this]
  cases h with
  | escape here two => simp [Word.eq_of_ofString_escape two]
  | given here long settled given =>
    obtain ⟨rfl, -⟩ := give_ok given
    rw [escaped_put, (settle_ok settled).2.1]
    exact same (.inr (by simp [long]))
  | named here long settled =>
    exact (settle_ok settled).2.1.trans (same (.inr (by simp [long])))
  | value here plain => exact same (.inr (by simp [plain]))
  | count plain verb first settled =>
    exact (settle_ok settled).2.1.trans (same (plain.imp_right fun plain => by simp [plain.1]))
  | kind plain verb settled taken =>
    rw [(kind_of_word verb settled taken).2.1]
    exact same (plain.imp_right fun plain => by simp [plain.1])

theorem eq_of_takes_waiting (h : l.Takes w m) (other : w ≠ "--")
    (waits : m.pending = .flag g none) : w = "--" ++ g.name := by
  cases h with
  | escape here two => exact absurd (Word.eq_of_ofString_escape two) other
  | given here long settled given =>
    obtain ⟨rfl, -⟩ := give_ok given
    rw [pending_put, (settle_ok settled).2.2] at waits
    cases waits
  | named here long settled =>
    cases waits
    simpa using Word.eq_of_ofString_long long
  | value | count => cases waits
  | kind plain verb settled taken =>
    obtain ⟨⟨ws, pending⟩, -⟩ := kind_of_word verb settled taken
    rw [pending] at waits
    cases waits

/-- A level for a count has at most one word pending. -/
def Sane (l : Level) : Prop :=
  l.verb = some .setLimit → ∀ ws, l.pending = .words ws → ∃ w, ws = [w]

theorem Sane.of_takes (sane : l.Sane) (h : l.Takes w m) : m.Sane := by
  intro verb ws pending
  cases h with
  | escape => exact sane verb ws pending
  | given here long settled given =>
    obtain ⟨rfl, -⟩ := give_ok given
    rw [pending_put, (settle_ok settled).2.2] at pending
    cases pending
  | named | value => cases pending
  | count => cases pending; exact ⟨_, rfl⟩
  | kind plain panels settled taken =>
    rw [(kind_of_word panels settled taken).2.2.1] at verb
    cases verb

/-- An option has not been named. -/
def Lacks (f : Flag) (l : Level) : Prop := l.value? f = none ∧ ∀ v, l.pending ≠ .flag f v

theorem Lacks.value?_settle (lacks : l.Lacks f) (h : l.settle = .ok k) : k.value? f = none := by
  obtain ⟨free, unnamed⟩ := lacks
  unfold settle at h
  split at h
  · cases h; exact free
  · cases h
  · next g v pending =>
    obtain ⟨rfl, -⟩ := give_ok h
    have other : f ≠ g := by
      rintro rfl
      exact unnamed _ pending
    rw [value?_put_of_ne other, value?_pending, free]
  · split at h
    · split at h
      · cases h; cases f <;> exact free
      · cases h
    · cases h; cases f <;> exact free

theorem Lacks.of_takes (lacks : l.Lacks f) (h : l.Takes w m)
    (other : l.escaped = true ∨ ¬ f.Names w) : m.Lacks f := by
  have unnamed : l.escaped = false → ∀ v, Word.ofString w ≠ .long f.name v := by
    intro here v long
    simp only [here, Bool.false_eq_true, false_or] at other
    exact other (Word.names_iff.2 (by rw [long, Word.name?]))
  cases h with
  | escape => exact ⟨by simpa using lacks.1, lacks.2⟩
  | @given g v k _ here long settled given =>
    obtain ⟨rfl, -⟩ := give_ok given
    have other : f ≠ g := by
      rintro rfl
      exact unnamed here _ long
    exact ⟨by rw [value?_put_of_ne other, lacks.value?_settle settled],
      by simp [(settle_ok settled).2.2]⟩
  | named here long settled =>
    refine ⟨by simpa using lacks.value?_settle settled, ?_⟩
    rintro v ⟨⟩
    exact unnamed here _ long
  | value here plain waits =>
    refine ⟨by simpa using lacks.1, ?_⟩
    rintro v ⟨⟩
    exact lacks.2 _ waits
  | count plain verb first settled =>
    exact ⟨by simpa using lacks.value?_settle settled, by simp⟩
  | kind plain verb settled taken =>
    obtain ⟨⟨ws, pending⟩, -, -, settled'⟩ := kind_of_word verb settled taken
    exact ⟨value?_of_settle settled' (by simpa using lacks.value?_settle settled), by simp [pending]⟩

/-! ### An option given in advance -/

/-- As its words go on, a level does not end up with an option. -/
def Open (f : Flag) (l : Level) : Prop :=
  (∃ g, l.pending = .flag g none ∧ g ≠ f ∧ l.value? f = none) ∨
    ∃ k, l.settle = .ok k ∧ k.value? f = none

theorem Open.value? (h : l.Open f) : l.value? f = none := by
  obtain ⟨g, -, -, free⟩ | ⟨k, settled, free⟩ := h
  · exact free
  · exact value?_of_settle settled free

theorem Open.of_takes (h : l.Takes w m) (rest : m.Open f) : l.Open f := by
  -- Backwards: an option that is given now, or was pending and is given now, would stay given.
  have free := rest.value?
  cases h with
  | escape =>
    obtain ⟨g, waits, other, -⟩ | ⟨k, settled, free⟩ := rest
    · exact .inl ⟨g, waits, other, by simpa using free⟩
    · rw [settle_escaped] at settled
      cases before : l.settle with
      | error r => rw [before] at settled; cases settled
      | ok k =>
        rw [before] at settled
        cases settled
        exact .inr ⟨k, before, by simpa using free⟩
  | @given g v k _ here long settled given =>
    obtain ⟨rfl, -⟩ := give_ok given
    have other : f ≠ g := by
      rintro rfl
      simp at free
    exact .inr ⟨k, settled, by rwa [value?_put_of_ne other] at free⟩
  | named here long settled | count _ _ _ settled =>
    exact .inr ⟨_, settled, by simpa using free⟩
  | @value g here plain waits =>
    refine .inl ⟨g, waits, ?_, by simpa using free⟩
    rintro rfl
    obtain ⟨g, waits, -⟩ | ⟨k, settled, free⟩ := rest
    · cases waits
    · obtain ⟨rfl, -⟩ := give_ok settled
      simp at free
  | kind plain verb settled taken =>
    obtain ⟨⟨ws, pending⟩, -, -, settled'⟩ := kind_of_word verb settled taken
    obtain ⟨g, waits, -⟩ | ⟨k, settled'', free⟩ := rest
    · rw [pending] at waits
      cases waits
    · rw [settled'] at settled''
      cases settled''
      exact .inr ⟨_, settled, by simpa using free⟩

/-- Of two levels that took the same words, one has been given an option in between. -/
structure Ahead (f : Flag) (d : String) (l m : Level) : Prop where
  verb : m.verb = l.verb
  escaped : m.escaped = l.escaped
  hasWord : l.verb = some .setLimit → m.hasWord = l.hasWord
  settled : ∀ k, l.settle = .ok k → m.settle = .ok (k.put f d)
  waiting : ∀ g, l.pending = .flag g none → m = l.put f d

theorem Ahead.put (free : l.Open f) (d : String) : Ahead f d l (l.put f d) where
  verb := verb_put
  escaped := escaped_put
  hasWord _ := by simp [Level.hasWord]
  settled k settled := by
    obtain ⟨g, waits, -⟩ | ⟨k', settled', free⟩ := free
    · rw [settle_waiting waits] at settled
      cases settled
    · rw [settled] at settled'
      cases settled'
      exact settle_put settled free d
  waiting _ _ := rfl

/-- The option itself comes in between when nothing waits for a value. -/
theorem Ahead.of_settled (sane : l.Sane) (settled : l.settle = .ok k) (free : k.value? f = none)
    (d : String) : Ahead f d l (k.put f d) := by
  obtain ⟨verb, escaped, nothing⟩ := settle_ok settled
  refine ⟨by rw [verb_put, verb], by rw [escaped_put, escaped], ?_, ?_, ?_⟩
  · intro counts
    unfold settle at settled
    split at settled
    · cases settled
      simp [Level.hasWord]
    · cases settled
    · next pending =>
      obtain ⟨rfl, -⟩ := give_ok settled
      simp [Level.hasWord, pending]
    · next ws pending =>
      obtain ⟨w, rfl⟩ := sane counts ws pending
      simp only [counts] at settled
      split at settled
      · cases settled
        simp [Level.hasWord, pending]
      · cases settled
  · intro k' settled'
    rw [settled] at settled'
    cases settled'
    exact settle_nothing (by rw [pending_put, nothing])
  · intro g waits
    rw [settle_waiting waits] at settled
    cases settled

theorem Ahead.awaiting (ahead : Ahead f d l m) (free : l.Open f) : m.awaiting = l.awaiting := by
  obtain ⟨g, waits, -⟩ | ⟨k, settled, -⟩ := free
  · rw [ahead.waiting g waits]
    simp [Level.awaiting]
  · have idle : ∀ {l k : Level}, l.settle = .ok k → l.awaiting = none := by
      intro l k settled
      rw [Option.eq_none_iff_forall_not_mem]
      intro g waits
      rw [settle_waiting (awaiting_eq_some.1 waits)] at settled
      cases settled
    rw [idle settled, idle (ahead.settled k settled)]

theorem Ahead.takes (ahead : Ahead f d l m) (free : l.Open f) {l' : Level} (h : l.Takes w l')
    (rest : l'.Open f) : ∃ m', m.Takes w m' ∧ Ahead f d l' m' := by
  have plainly (plain : l.escaped = true ∨ Word.ofString w = .plain w ∧ l.awaiting = none) :
      m.escaped = true ∨ Word.ofString w = .plain w ∧ m.awaiting = none := by
    rwa [ahead.escaped, ahead.awaiting free]
  -- Whatever is still pending at `l` and is taken over by this word is taken over at `m` as well,
  -- since it is not the option itself.
  cases h with
  | escape here two =>
    refine ⟨_, .escape (ahead.escaped.trans here) two, ahead.verb, rfl, ahead.hasWord, ?_, ?_⟩
    · intro k settled
      rw [settle_escaped] at settled ⊢
      cases before : l.settle with
      | error r => rw [before] at settled; cases settled
      | ok k =>
        rw [before] at settled
        cases settled
        rw [ahead.settled k before]
        cases f <;> rfl
    · intro g waits
      rw [ahead.waiting g waits]
      cases f <;> rfl
  | given here long settled given =>
    refine ⟨_, .given (ahead.escaped.trans here) long (ahead.settled _ settled) ?_, .put rest d⟩
    exact give_put given rest.value? d
  | named here long settled =>
    refine ⟨_, .named (ahead.escaped.trans here) long (ahead.settled _ settled), ?_⟩
    have put := Ahead.put rest d
    cases f <;> exact put
  | @value g here plain waits =>
    obtain rfl := ahead.waiting g waits
    refine ⟨_, .value (ahead.escaped.trans here) plain (by rw [pending_put, waits]), ?_⟩
    have put := Ahead.put rest d
    cases f <;> exact put
  | count plain verb first settled =>
    refine ⟨_, .count (plainly plain) (ahead.verb.trans verb) ((ahead.hasWord verb).trans first)
      (ahead.settled _ settled), ?_⟩
    have put := Ahead.put rest d
    cases f <;> exact put
  | kind plain verb settled taken =>
    have verb' := ahead.verb.trans verb
    have settled' := ahead.settled _ settled
    obtain ⟨m', taken'⟩ := word_panels verb' settled' w
    obtain ⟨⟨ws, pending⟩, escaped, panels, settles⟩ := kind_of_word verb settled taken
    obtain ⟨-, escaped', panels', settles'⟩ := kind_of_word verb' settled' taken'
    refine ⟨m', .kind (plainly plain) verb' settled' taken', ?_, ?_, ?_, ?_, ?_⟩
    · rw [panels, panels']
    · rw [escaped, escaped', ahead.escaped]
    · simp [panels]
    · intro k settled''
      rw [settles] at settled''
      cases settled''
      rw [settles']
      cases f <;> rfl
    · simp [pending]

end Level

/-! ## Command lines -/

theorem Flag.option_ne (f : Flag) (d : String) {name : String} (other : name.toList.head? ≠ some '-') :
    f.option d ≠ name := by
  rintro rfl
  exact other (by simp [Flag.option])

theorem Verb.ofName?_option (f : Flag) (d : String) : Verb.ofName? (f.option d) = none := by
  unfold Verb.ofName?
  rw [if_neg (f.option_ne d (by simp)), if_neg (f.option_ne d (by simp)),
    if_neg (f.option_ne d (by simp)), if_neg (f.option_ne d (by simp))]

namespace State

variable {s s' t : State} {f : Flag} {d w : String} {inv : Invocation}

/-- How a word is taken, given the level that it belongs to. -/
inductive Takes (w : String) : State → State → Prop
  | help {s : State} {named : Bool} : Takes w s (.helping named)
  | command {top : Level} {verb : Verb} (free : top.mayBeCommand = true) (other : w ≠ "help")
      (name : Verb.ofName? w = some verb) : Takes w (.before top) (.inside top (.start (some verb)))
  | early {top top' : Level} (free : top.mayBeCommand = true → w ≠ "help" ∧ Verb.ofName? w = none)
      (takes : top.Takes w top') : Takes w (.before top) (.before top')
  | late {top sub sub' : Level} (takes : sub.Takes w sub') :
      Takes w (.inside top sub) (.inside top sub')

theorem map_ok {α β : Type} {g : α → β} {m : Except Rejection α} {b : β} (h : g <$> m = .ok b) :
    ∃ a, m = .ok a ∧ g a = b := by
  cases m with
  | error r => cases h
  | ok a => cases h; exact ⟨a, rfl, rfl⟩

theorem takes_of_take (h : s.take w = .ok s') : s.Takes w s' := by
  cases s with
  | helping named =>
    simp only [take] at h
    split at h <;> cases h
    exact .help
  | inside top sub =>
    obtain ⟨sub', taken, rfl⟩ := map_ok h
    exact .late (Level.takes_of_take taken)
  | before top =>
    simp only [take] at h
    split at h
    · cases h
      exact .help
    · next other =>
      split at h
      · next verb named =>
        cases h
        obtain ⟨name, free⟩ := Option.filter_eq_some_iff.1 named
        exact .command free (by simpa [free] using other) name
      · next unnamed =>
        obtain ⟨top', taken, rfl⟩ := map_ok h
        refine .early ?_ (Level.takes_of_take taken)
        intro free
        refine ⟨by simpa [free] using other, ?_⟩
        simpa [free, Option.eq_none_iff_forall_not_mem] using unnamed

theorem take_of_takes_early {top top' : Level}
    (free : top.mayBeCommand = true → w ≠ "help" ∧ Verb.ofName? w = none) (takes : top.Takes w top') :
    (before top).take w = .ok (.before top') := by
  simp only [take, Level.take_of_takes takes]
  cases may : top.mayBeCommand with
  | false => cases Verb.ofName? w <;> simp [Option.filter]
  | true =>
    obtain ⟨other, unnamed⟩ := free may
    simp [other, unnamed]

/-- The level whose words are taken. -/
def current? : State → Option Level
  | .before top => some top
  | .helping _ => none
  | .inside _ sub => some sub

def Each (P : Level → Prop) : State → Prop
  | .before top => P top
  | .helping _ => True
  | .inside top sub => P top ∧ P sub

theorem Each.of_takes {P : Level → Prop} (each : s.Each P) (h : s.Takes w s')
    (fresh : ∀ verb, P (.start verb))
    (keeps : ∀ l m, s.current? = some l → l.Takes w m → P l → P m) : s'.Each P := by
  cases h with
  | help => trivial
  | command => exact ⟨each, fresh _⟩
  | early free takes => exact keeps _ _ rfl takes each
  | late takes => exact ⟨each.1, keeps _ _ rfl takes each.2⟩

/-- No level ends up with an option as the words go on; nobody has asked for help. -/
def Open (f : Flag) : State → Prop
  | .before top => top.Open f
  | .helping _ => False
  | .inside top sub => top.Open f ∧ sub.Open f

theorem Open.of_takes (h : s.Takes w s') (rest : s'.Open f) : s.Open f := by
  cases h with
  | help => cases rest
  | command => exact rest.1
  | early free takes => exact .of_takes takes rest
  | late takes => exact ⟨rest.1, .of_takes takes rest.2⟩

/-- Two states that took the same words, but for an option in between that one of the levels has
    been given. -/
inductive Ahead (f : Flag) (d : String) : State → State → Prop
  | early {l m : Level} (ahead : l.Ahead f d m) : Ahead f d (.before l) (.before m)
  | outside {l m sub : Level} (ahead : l.Ahead f d m) : Ahead f d (.inside l sub) (.inside m sub)
  | late {top l m : Level} (ahead : l.Ahead f d m) : Ahead f d (.inside top l) (.inside top m)

theorem Ahead.take (ahead : Ahead f d s t) (h : s.take w = .ok s') (rest : s'.Open f) :
    ∃ t', t.take w = .ok t' ∧ Ahead f d s' t' := by
  have takes := takes_of_take h
  have unended := Open.of_takes takes rest
  cases ahead with
  | @early l m ahead =>
    have may : m.mayBeCommand = l.mayBeCommand := by
      simp only [Level.mayBeCommand, ahead.escaped, ahead.awaiting unended]
    cases takes with
    | help => cases rest
    | command free other name =>
      exact ⟨.inside m (.start _), by simp [State.take, may, free, other, name, Option.filter],
        .outside ahead⟩
    | early free takes =>
      obtain ⟨m', takes', ahead'⟩ := ahead.takes unended takes rest
      exact ⟨.before m', take_of_takes_early (by rwa [may]) takes', .early ahead'⟩
  | outside ahead =>
    cases takes with
    | help => cases rest
    | late takes =>
      refine ⟨.inside _ _, ?_, .outside ahead⟩
      rw [State.take, Level.take_of_takes takes]
      rfl
  | late ahead =>
    cases takes with
    | help => cases rest
    | late takes =>
      obtain ⟨m', takes', ahead'⟩ := ahead.takes unended.2 takes rest.2
      refine ⟨.inside _ m', ?_, .late ahead'⟩
      rw [State.take, Level.take_of_takes takes']
      rfl

end State

namespace Invocation

def value? (inv : Invocation) : Flag → Option String
  | .settings => inv.settings
  | .log => inv.log

/-- The same invocation, with an option. -/
def put (inv : Invocation) (f : Flag) (d : String) : Invocation :=
  match f with
  | .settings => { inv with settings := some d }
  | .log => { inv with log := some d }

/-- What two levels amount to: the inner one counts first. -/
def of (inner outer : Level) (command : Option Command) : Invocation :=
  ⟨inner.settings <|> outer.settings, inner.log <|> outer.log, command⟩

variable {inner outer : Level} {f : Flag} {command : Option Command}

theorem value?_of_eq_none :
    (of inner outer command).value? f = none ↔ inner.value? f = none ∧ outer.value? f = none := by
  cases f <;> simp [of, value?, Level.value?]

theorem of_put_inner (d : String) :
    of (inner.put f d) outer command = (of inner outer command).put f d := by
  cases f <;> simp [of, put, Level.put]

theorem of_put_outer (free : inner.value? f = none) (d : String) :
    of inner (outer.put f d) command = (of inner outer command).put f d := by
  cases f <;> simp_all [of, put, Level.put, Level.value?]

end Invocation

namespace State

variable {s s' t : State} {f : Flag} {d w : String} {ws after : List String} {inv : Invocation}

theorem finish_ok (h : s.finish = .ok inv) :
    (∃ top k, s = .before top ∧ top.settle = .ok k ∧ inv = ⟨k.settings, k.log, none⟩) ∨
      ∃ top sub j k command, s = .inside top sub ∧ sub.settle = .ok k ∧ k.command = .ok command ∧
        top.settle = .ok j ∧ inv = .of k j command := by
  cases s with
  | before top =>
    obtain ⟨k, settled, h⟩ := bind_ok h
    cases h
    exact .inl ⟨top, k, rfl, settled, rfl⟩
  | helping => cases h
  | inside top sub =>
    obtain ⟨k, settled, h⟩ := bind_ok h
    obtain ⟨command, asked, h⟩ := bind_ok h
    obtain ⟨j, settled', h⟩ := bind_ok h
    cases h
    exact .inr ⟨top, sub, j, k, command, rfl, settled, asked, settled', rfl⟩

theorem finish_inside {top sub j k : Level} {command : Option Command} (settled : sub.settle = .ok k)
    (asked : k.command = .ok command) (settled' : top.settle = .ok j) :
    (inside top sub).finish = .ok (.of k j command) := by
  simp only [State.finish, settled, settled']
  show (k.command >>= _) = _
  rw [asked]
  rfl

theorem open_of_finish (h : s.finish = .ok inv) (free : inv.value? f = none) : s.Open f := by
  obtain ⟨top, k, rfl, settled, rfl⟩ | ⟨top, sub, j, k, command, rfl, settled, -, settled', rfl⟩ :=
    finish_ok h
  · exact .inr ⟨k, settled, by cases f <;> exact free⟩
  · rw [Invocation.value?_of_eq_none] at free
    exact ⟨.inr ⟨j, settled', free.2⟩, .inr ⟨k, settled, free.1⟩⟩

theorem Ahead.finish (ahead : Ahead f d s t) (h : s.finish = .ok inv) (free : inv.value? f = none) :
    t.finish = .ok (inv.put f d) := by
  obtain ⟨top, k, rfl, settled, rfl⟩ |
    ⟨top, sub, j, k, command, rfl, settled, asked, settled', rfl⟩ := finish_ok h
  · cases ahead with
    | early ahead =>
      simp only [State.finish, ahead.settled k settled]
      cases f <;> rfl
  · rw [Invocation.value?_of_eq_none] at free
    cases ahead with
    | outside ahead =>
      rw [finish_inside settled asked (ahead.settled j settled'), Invocation.of_put_outer free.1]
    | late ahead =>
      have asked' : (k.put f d).command = .ok command := by
        simpa [Level.command] using asked
      rw [finish_inside (ahead.settled k settled) asked' settled', Invocation.of_put_inner]

inductive Reads : State → List String → Invocation → Prop
  | finish {s : State} {inv : Invocation} (finished : s.finish = .ok inv) : Reads s [] inv
  | take {s s' : State} {w : String} {ws : List String} {inv : Invocation}
      (taken : s.take w = .ok s') (rest : Reads s' ws inv) : Reads s (w :: ws) inv

theorem Reads.open (reads : s.Reads ws inv) (free : inv.value? f = none) : s.Open f := by
  induction reads with
  | finish finished => exact open_of_finish finished free
  | take taken rest ih => exact .of_takes (takes_of_take taken) (ih free)

theorem Reads.ahead (reads : s.Reads ws inv) (free : inv.value? f = none) {t : State}
    (ahead : Ahead f d s t) : t.Reads ws (inv.put f d) := by
  induction reads generalizing t with
  | finish finished => exact .finish (ahead.finish finished free)
  | take taken rest ih =>
    obtain ⟨t', taken', ahead'⟩ := ahead.take taken (rest.open free)
    exact .take taken' (ih free ahead')

theorem reads_iff : (ws.foldlM State.take s >>= State.finish) = .ok inv ↔ s.Reads ws inv := by
  constructor
  · intro h
    induction ws generalizing s with
    | nil => exact .finish h
    | cons w ws ih =>
      rw [List.foldlM_cons, bind_assoc] at h
      obtain ⟨s', taken, h⟩ := bind_ok h
      exact .take taken (ih h)
  · intro h
    induction h with
    | finish finished => exact finished
    | take taken rest ih =>
      rw [List.foldlM_cons, taken]
      exact ih

/-- Two hyphens have been passed. -/
def Past (s : State) : Prop := ∀ l, s.current? = some l → l.escaped = true

theorem Past.of_takes (h : s.Takes w s') (past : s.Past ∨ w = "--") : s'.Past := by
  have escaped {l m : Level} (current : s.current? = some l) (takes : l.Takes w m) :
      m.escaped = true := by
    rw [Level.escaped_of_takes takes]
    obtain past | rfl := past
    · simp [past l current]
    · simp
  cases h with
  | help => rintro l ⟨⟩
  | command free other name =>
    obtain past | rfl := past
    · simp [Level.mayBeCommand, past _ rfl] at free
    · cases name
  | early free takes => rintro l ⟨⟩; exact escaped rfl takes
  | late takes => rintro l ⟨⟩; exact escaped rfl takes

/-- Where no word that can be an option names it, it is not given. -/
theorem Reads.value? (reads : s.Reads ws inv) (lacks : s.Each (Level.Lacks f))
    (absent : s.Past ∨ ∀ w ∈ ws.takeWhile (· ≠ "--"), ¬ f.Names w) : inv.value? f = none := by
  induction reads with
  | finish finished =>
    obtain ⟨top, k, rfl, settled, rfl⟩ | ⟨top, sub, j, k, command, rfl, settled, -, settled', rfl⟩ :=
      finish_ok finished
    · have free := Level.Lacks.value?_settle lacks settled
      cases f <;> exact free
    · exact Invocation.value?_of_eq_none.2
        ⟨lacks.2.value?_settle settled, lacks.1.value?_settle settled'⟩
  | @take s s' w ws inv taken rest ih =>
    have takes := takes_of_take taken
    have unnamed : s.Past ∨ ¬ f.Names w := by
      refine absent.imp_right fun absent => ?_
      by_cases two : w = "--"
      · rw [two]
        cases f <;> decide
      · exact absent w (by simp [two])
    refine ih (lacks.of_takes takes ?_ ?_) ?_
    · exact fun verb => ⟨by cases f <;> rfl, by rintro v ⟨⟩⟩
    · intro l m current takes lacks
      exact lacks.of_takes takes (unnamed.imp_left fun past => past l current)
    · by_cases two : w = "--"
      · exact .inl (.of_takes takes (.inr two))
      · refine absent.imp (fun past => .of_takes takes (.inl past)) fun absent v later => ?_
        refine absent v ?_
        rw [List.takeWhile_cons_of_pos (by simp [two])]
        exact .tail _ later

/-- An option is understood wherever nothing waits for its value. -/
theorem ahead_of_option {l : Level} (current : s.current? = some l) (unended : s.Open f)
    (sane : s.Each Level.Sane) (here : l.escaped = false) (idle : l.awaiting = none)
    (filled : d ≠ "") : ∃ t, s.take (f.option d) = .ok t ∧ Ahead f d s t := by
  have advance (unended : l.Open f) (sane : l.Sane) :
      ∃ m, l.Takes (f.option d) m ∧ l.Ahead f d m := by
    obtain ⟨g, waits, -⟩ | ⟨k, settled, free⟩ := unended
    · rw [Level.awaiting_eq_some.2 waits] at idle
      cases idle
    · exact ⟨k.put f d, .given here (Word.ofString_option f d) settled
        (Level.give_of_free free (by simp [filled])), .of_settled sane settled free d⟩
  cases s with
  | before top =>
    cases current
    obtain ⟨m, takes, ahead⟩ := advance unended sane
    refine ⟨.before m, take_of_takes_early ?_ takes, .early ahead⟩
    exact fun _ => ⟨f.option_ne d (by simp), Verb.ofName?_option f d⟩
  | helping => cases current
  | inside top sub =>
    cases current
    obtain ⟨m, takes, ahead⟩ := advance unended.2 sane.2
    refine ⟨.inside top m, ?_, .late ahead⟩
    rw [State.take, Level.take_of_takes takes]
    rfl

theorem current_of_takes (h : s.Takes w s') (unended : s'.Open f) {l : Level}
    (current : s.current? = some l) (here : l.escaped = false) (other : w ≠ "--") :
    ∃ m, s'.current? = some m ∧ m.escaped = false ∧ ∀ g, m.awaiting = some g → w = "--" ++ g.name := by
  have next {m : Level} (takes : l.Takes w m) :
      m.escaped = false ∧ ∀ g, m.awaiting = some g → w = "--" ++ g.name := by
    refine ⟨by simp [Level.escaped_of_takes takes, here, other], ?_⟩
    intro g waits
    exact Level.eq_of_takes_waiting takes other (Level.awaiting_eq_some.1 waits)
  cases h with
  | help => cases unended
  | command => exact ⟨_, rfl, rfl, by rintro g ⟨⟩⟩
  | early free takes => cases current; exact ⟨_, rfl, next takes⟩
  | late takes => cases current; exact ⟨_, rfl, next takes⟩

theorem Reads.insert {before after : List String} (reads : s.Reads (before ++ after) inv)
    (free : inv.value? f = none) (sane : s.Each Level.Sane) {l : Level}
    (current : s.current? = some l) (here : l.escaped = false)
    (idle : before = [] → l.awaiting = none) (unended : "--" ∉ before)
    (between : ∀ g : Flag, before.getLast? ≠ some ("--" ++ g.name)) (filled : d ≠ "") :
    s.Reads (before ++ f.option d :: after) (inv.put f d) := by
  induction before generalizing s l with
  | nil =>
    obtain ⟨t, taken, ahead⟩ := ahead_of_option current (reads.open free) sane here (idle rfl) filled
    exact .take taken (reads.ahead free ahead)
  | cons w before ih =>
    cases reads with
    | take taken rest =>
      have takes := takes_of_take taken
      have other : w ≠ "--" := by
        rintro rfl
        simp at unended
      obtain ⟨m, current', here', waits⟩ :=
        current_of_takes takes (rest.open free) current here other
      refine .take taken (ih rest ?_ current' here' ?_ ?_ ?_)
      · refine sane.of_takes takes ?_ ?_
        · intro verb _ ws pending
          cases pending
        · exact fun _ _ _ takes sane => sane.of_takes takes
      · rintro rfl
        rw [Option.eq_none_iff_forall_not_mem]
        intro g awaits
        exact between g (by rw [waits g awaits]; rfl)
      · exact fun later => unended (.tail _ later)
      · intro g last
        refine between g ?_
        cases before with
        | nil => cases last
        | cons v before => rwa [List.getLast?_cons_cons]

end State

/-- An option may be given anywhere among the words of a command line. -/
theorem parse_insert {f : Flag} {before after : List String} {inv : Invocation}
    (parsed : parse (before ++ after) = .ok inv)
    (absent : ∀ w ∈ (before ++ after).takeWhile (· ≠ "--"), ¬ f.Names w)
    (unended : "--" ∉ before) (between : ∀ g : Flag, before.getLast? ≠ some ("--" ++ g.name))
    {d : String} (filled : d ≠ "") :
    parse (before ++ f.option d :: after) = .ok (inv.put f d) := by
  have sane : (State.before (.start none)).Each Level.Sane := by
    rintro ⟨⟩
  have lacks : (State.before (.start none)).Each (Level.Lacks f) :=
    ⟨by cases f <;> rfl, by rintro v ⟨⟩⟩
  have reads := State.reads_iff.1 parsed
  have free := reads.value? lacks (.inr absent)
  exact State.reads_iff.2 (reads.insert free sane rfl rfl (fun _ => rfl) unended between filled)

theorem parse_insert_among_kinds :
    parse ["--settings", "a.db", "panels", "notes", "--log=debug", "log"] =
      .ok ⟨some "a.db", some "debug", some (.panels ["notes", "log"])⟩ := by
  refine @parse_insert .log ["--settings", "a.db", "panels", "notes"] ["log"]
    ⟨some "a.db", none, some (.panels ["notes", "log"])⟩ ?_ ?_ ?_ ?_ "debug" ?_
  · rfl
  · decide
  · decide
  · intro g
    cases g <;> decide
  · decide

end LiveState.Arguments
