import Mathlib.Data.Nat.Digits.Defs
import LiveState.Proofs.Arguments
import LiveState.Proofs.Json.Number

/-! # Counts as words

Which words stand for a count, and for which one.
-/

namespace LiveState.Arguments

/-- The number that decimal digits stand for; the last one counts the ones. -/
def digitsValue (ds : List Char) : Nat :=
  Nat.ofDigits 10 (ds.map fun c => c.toNat - '0'.toNat).reverse

/-- One or more decimal digits that stand for a number. -/
def IsDigits (ds : List Char) (n : Nat) : Prop :=
  ds ≠ [] ∧ (∀ c ∈ ds, '0' ≤ c ∧ c ≤ '9') ∧ digitsValue ds = n

/-- Digits that stand for a number, with a plus sign before them or none. -/
def IsNumeral (t : String) (n : Nat) : Prop :=
  ∃ ds, (t.toList = ds ∨ t.toList = '+' :: ds) ∧ IsDigits ds n

/-- The digits of a number without any idle zeros. -/
def IsCanonical (t : String) (n : Nat) : Prop :=
  IsDigits t.toList n ∧ (t.toList.head? = some '0' → t = "0")

variable {ds : List Char} {t : String} {n : Nat}

theorem digitsValue_concat (ds : List Char) (c : Char) :
    digitsValue (ds ++ [c]) = digitsValue ds * 10 + (c.toNat - '0'.toNat) := by
  simp only [digitsValue, List.map_append, List.map_cons, List.map_nil, List.reverse_append,
    List.reverse_cons, List.reverse_nil, List.nil_append, List.cons_append, Nat.ofDigits_cons]
  simp
  omega

theorem foldl_digits (ds : List Char) :
    ds.foldl (fun n c => n * 10 + (c.toNat - '0'.toNat)) 0 = digitsValue ds := by
  induction ds using List.reverseRecOn with
  | nil => rfl
  | append_singleton ds c ih =>
    rw [List.foldl_append, List.foldl_cons, List.foldl_nil, ih, digitsValue_concat]

theorem decimal?_eq_some : decimal? ds = some n ↔ IsDigits ds n := by
  have digits : (∀ c ∈ ds, '0' ≤ c ∧ c ≤ '9') ↔
      ds.all (fun c => decide ('0' ≤ c) && decide (c ≤ '9')) = true := by simp
  rw [decimal?, IsDigits, foldl_digits, digits]
  cases ds.all fun c => decide ('0' ≤ c) && decide (c ≤ '9') <;> simp

theorem IsDigits.head?_ne (h : IsDigits ds n) : ds.head? ≠ some '+' := by
  intro sign
  exact absurd (h.2.1 '+' (List.mem_of_head? sign)).1 (by decide)

theorem isNumeral_iff : IsNumeral t n ↔
    match t.toList with
    | '+' :: ds => IsDigits ds n
    | ds => IsDigits ds n := by
  unfold IsNumeral
  split
  · next ds sign =>
    rw [sign]
    constructor
    · rintro ⟨ds', rfl | same, digits⟩
      · exact absurd rfl digits.head?_ne
      · cases same
        exact digits
    · exact fun digits => ⟨ds, .inr rfl, digits⟩
  · next unsigned =>
    constructor
    · rintro ⟨ds, same | same, digits⟩
      · rwa [same]
      · exact absurd same (unsigned ds)
    · exact fun digits => ⟨_, .inl rfl, digits⟩

/-- A word without a minus sign is a count if it is a numeral of 32 bits. -/
theorem count?_eq_some (plain : t.toList.head? ≠ some '-') {limit : UInt32} :
    count? t = some limit ↔ IsNumeral t limit.toNat := by
  -- The bound of the type is the bound of the numeral.
  have fits (n : Nat) : (if n < UInt32.size then some (UInt32.ofNat n) else none) = some limit ↔
      n = limit.toNat := by
    split
    · next small =>
      rw [Option.some.injEq]
      constructor
      · rintro rfl
        exact (UInt32.toNat_ofNat_of_lt' small).symm
      · rintro rfl
        exact UInt32.ofNat_toNat
    · next large =>
      simp only [reduceCtorEq, false_iff]
      rintro rfl
      exact large limit.toNat_lt
  have read (ds : List Char) :
      ((decimal? ds).bind fun n => if n < UInt32.size then some (UInt32.ofNat n) else none) =
        some limit ↔ IsDigits ds limit.toNat := by
    rw [Option.bind_eq_some_iff]
    constructor
    · rintro ⟨n, digits, small⟩
      rw [← (fits n).1 small]
      exact decimal?_eq_some.1 digits
    · exact fun digits => ⟨_, decimal?_eq_some.2 digits, (fits _).2 rfl⟩
  rw [isNumeral_iff, count?]
  split
  · next ds sign =>
    simp only [sign]
    exact read ds
  · next minus => simp [minus] at plain
  · next unsigned _ =>
    split
    · next ds sign => exact absurd sign (unsigned ds)
    · exact read _

/-! ## Canonical digits -/

theorem isDigits_toDigits (n : Nat) : IsDigits (Nat.toDigits 10 n) n := by
  have digit : ∀ k < 10, ('0' ≤ Nat.digitChar k ∧ Nat.digitChar k ≤ '9') ∧
      (Nat.digitChar k).toNat - '0'.toNat = k := by decide
  induction n using Nat.strongRecOn with
  | ind n ih =>
    rw [Nat.toDigits_eq_if (by decide)]
    split
    · next small =>
      obtain ⟨decimal, value⟩ := digit n small
      refine ⟨by simp, by simpa using decimal, (digitsValue_concat [] _).trans ?_⟩
      simpa [digitsValue] using value
    · next large =>
      obtain ⟨some, decimal, value⟩ := ih (n / 10) (by omega)
      obtain ⟨decimal', value'⟩ := digit (n % 10) (by omega)
      refine ⟨by simp, ?_, ?_⟩
      · rw [List.forall_mem_append]
        exact ⟨decimal, by simpa using decimal'⟩
      · rw [digitsValue_concat, value, value']
        omega

theorem isCanonical_toString (n : Nat) : IsCanonical (toString n) n := by
  rw [Nat.toString_eq_repr, IsCanonical, Nat.toList_repr]
  refine ⟨isDigits_toDigits n, ?_⟩
  intro zero
  by_cases none : n = 0
  · rw [none]
    rfl
  · exact absurd zero (Json.head?_toDigits_ne none)

/-! ## The command line -/

theorem Word.ofString_plain (plain : t.toList.head? ≠ some '-') : ofString t = .plain t := by
  unfold ofString
  split
  · next two => simp [two] at plain
  · next two => simp [two] at plain
  · next one => simp [one] at plain
  · rfl

/-- The command line of a new limit is understood if its word is a count. -/
theorem parse_setLimit (plain : t.toList.head? ≠ some '-') :
    parse ["set-limit", t] =
      match count? t with
      | some limit => .ok ⟨none, none, some (.setLimit limit)⟩
      | none => .error .valueValidation := by
  have start : (State.before (.start none)).take "set-limit" =
      .ok (.inside (.start none) (.start (some .setLimit))) := rfl
  have taken : (Level.start (some .setLimit)).take t =
      .ok { Level.start (some .setLimit) with pending := .words [t] } := by
    simp only [Level.take, Word.ofString_plain plain]
    rfl
  have read : parse ["set-limit", t] =
      (State.inside (.start none)
        { Level.start (some .setLimit) with pending := .words [t] }).finish := by
    simp only [parse, List.foldlM_cons, List.foldlM_nil, start]
    show (State.inside (.start none) <$> (Level.start (some .setLimit)).take t >>= pure) >>= _ = _
    rw [taken]
    rfl
  rw [read]
  cases counted : count? t with
  | none =>
    simp only [State.finish, Level.settle, Level.start, counted]
    rfl
  | some limit =>
    simp only [State.finish, Level.settle, Level.start, counted]
    rfl

theorem parse_numeral (plain : t.toList.head? ≠ some '-') (small : n ≤ 4294967295)
    (numeral : IsNumeral t n) :
    ∃ limit : UInt32, limit.toNat = n ∧
      parse ["set-limit", t] = .ok ⟨none, none, some (.setLimit limit)⟩ := by
  obtain ⟨limit, rfl⟩ : ∃ limit : UInt32, limit.toNat = n :=
    ⟨.ofNat n, UInt32.toNat_ofNat_of_lt' (Nat.lt_succ_of_le small)⟩
  refine ⟨limit, rfl, ?_⟩
  rw [parse_setLimit plain, (count?_eq_some plain).2 numeral]

/-- No other words are understood as a limit. -/
theorem parses_setLimit_iff (plain : t.toList.head? ≠ some '-') :
    (∃ invocation, parse ["set-limit", t] = .ok invocation) ↔ ∃ n ≤ 4294967295, IsNumeral t n := by
  constructor
  · rintro ⟨invocation, parsed⟩
    rw [parse_setLimit plain] at parsed
    cases counted : count? t with
    | none =>
      rw [counted] at parsed
      cases parsed
    | some limit =>
      have small := limit.toNat_lt
      exact ⟨limit.toNat, by omega, (count?_eq_some plain).1 counted⟩
  · rintro ⟨n, small, numeral⟩
    obtain ⟨limit, -, parsed⟩ := parse_numeral plain small numeral
    exact ⟨_, parsed⟩

end LiveState.Arguments
