import LiveState.Json.Number

/-! # Numbers read back

A whole number that fits 64 bits is read back from its digits, unless the text goes on as the
number might.  What is read as a number on its own is read as the same number inside a text.
-/

namespace LiveState.Json

/-- The text does not go on as a number might. -/
def Ended (rest : List Char) : Prop :=
  ∀ c, rest.head? = some c → isDigit c = false ∧ c ≠ '.' ∧ c ≠ 'e' ∧ c ≠ 'E'

theorem ended_cons {c : Char} (rest : List Char)
    (h : isDigit c = false ∧ c ≠ '.' ∧ c ≠ 'e' ∧ c ≠ 'E') : Ended (c :: rest) := by
  intro d hd
  cases hd
  exact h

/-- The whole numbers that are kept as they are. -/
def IsExact (n : Int) : Prop := -0x8000000000000000 ≤ n ∧ n < 0x10000000000000000

variable {rest : List Char}

/-! ## Digits -/

theorem isDigit_of_mem_toDigits {n : Nat} {c : Char} (h : c ∈ Nat.toDigits 10 n) :
    isDigit c = true := by
  have digit := Nat.isDigit_of_mem_toDigits (by decide) (by decide) h
  simpa [Char.isDigit, isDigit, Char.le_def] using digit

theorem toDigits_eq_cons (n : Nat) : ∃ c ds, Nat.toDigits 10 n = c :: ds ∧ isDigit c = true := by
  cases digits : Nat.toDigits 10 n with
  | nil => exact absurd digits Nat.toDigits_ne_nil
  | cons c ds => exact ⟨c, ds, rfl, isDigit_of_mem_toDigits (digits ▸ List.mem_cons_self)⟩

theorem takeDigits_append {ds : List Char} (h : ∀ c ∈ ds, isDigit c = true) (ended : Ended rest) :
    takeDigits (ds ++ rest) = (ds, rest) := by
  have stops : rest.takeWhile isDigit = [] ∧ rest.dropWhile isDigit = rest := by
    cases rest with
    | nil => exact ⟨rfl, rfl⟩
    | cons c rest =>
      have no := (ended c rfl).1
      simp [no]
  rw [takeDigits, List.takeWhile_append_of_pos h, List.dropWhile_append_of_pos h, stops.1, stops.2,
    List.append_nil]

theorem gather_eq (ds : List Char) {n : Nat} (fits : Nat.ofDigitChars 10 ds n < UInt64.size) :
    gather n ds = (Nat.ofDigitChars 10 ds n, []) := by
  induction ds generalizing n with
  | nil => rfl
  | cons c ds ih =>
    have next : Nat.ofDigitChars 10 (c :: ds) n =
        Nat.ofDigitChars 10 ds (n * 10 + digitValue c) := by
      rw [Nat.ofDigitChars_cons, Nat.mul_comm]
      rfl
    -- A number with more digits is greater, so that this one fits as well.
    have small : n * 10 + digitValue c < UInt64.size := by
      refine Nat.lt_of_le_of_lt ?_ (next ▸ fits)
      rw [Nat.ofDigitChars_eq_ofDigitChars_zero]
      exact Nat.le_trans (Nat.le_mul_of_pos_left _ (Nat.pow_pos (by decide))) (Nat.le_add_right ..)
    rw [gather, if_pos small, next]
    exact ih (next ▸ fits)

theorem gather_toDigits {n : Nat} (fits : n < UInt64.size) :
    gather 0 (Nat.toDigits 10 n) = (n, []) := by
  rw [gather_eq _ (by rwa [Nat.ofDigitChars_ten_toDigits]), Nat.ofDigitChars_ten_toDigits]

theorem head?_toDigits_ne {n : Nat} (h : n ≠ 0) : (Nat.toDigits 10 n).head? ≠ some '0' := by
  induction n using Nat.strongRecOn with
  | ind n ih =>
    rw [Nat.toDigits_eq_if (by decide)]
    split
    · next small =>
      have nonzero : ∀ k < 10, k ≠ 0 → Nat.digitChar k ≠ '0' := by decide
      simpa using nonzero n small h
    · -- The digits of the number without its last one come first.
      have first := ih (n / 10) (by omega) (by omega)
      have some : (Nat.toDigits 10 (n / 10)).head? ≠ none := by simp
      rw [List.head?_append]
      cases found : (Nat.toDigits 10 (n / 10)).head? with
      | none => exact absurd found some
      | some c =>
        rw [found] at first
        exact first

theorem wholePart_toDigits (n : Nat) (ended : Ended rest) :
    wholePart (Nat.toDigits 10 n ++ rest) = some (Nat.toDigits 10 n, rest) := by
  rw [wholePart, takeDigits_append (fun _ => isDigit_of_mem_toDigits) ended]
  rcases digits : Nat.toDigits 10 n with _ | ⟨c, _ | ⟨d, ds⟩⟩
  · exact absurd digits Nat.toDigits_ne_nil
  · simp
  -- Several digits do not begin with a zero.
  · have first : c ≠ '0' := by
      rintro rfl
      refine head?_toDigits_ne (n := n) ?_ (by rw [digits]; rfl)
      rintro rfl
      cases digits
    simp [first]

theorem fractionPart_of_ended (ended : Ended rest) : fractionPart rest = some (none, rest) := by
  cases rest with
  | nil => rfl
  | cons c rest =>
    have no := (ended c rfl).2.1
    simp [fractionPart, no]

theorem exponentPart_of_ended (ended : Ended rest) : exponentPart rest = some (none, rest) := by
  cases rest with
  | nil => rfl
  | cons c rest =>
    have no := (ended c rfl).2.2
    simp [exponentPart, no]

/-! ## Numbers -/

theorem unsigned_toDigits (negative : Bool) {n : Nat} (ended : Ended rest) :
    unsigned negative (Nat.toDigits 10 n ++ rest) =
      (NumberParts.value? ⟨negative, Nat.toDigits 10 n, none, none⟩).map fun v => (v, rest) := by
  rw [unsigned, wholePart_toDigits n ended]
  simp only [Option.bind_eq_bind, Option.bind_some, fractionPart_of_ended ended,
    exponentPart_of_ended ended, Option.map_eq_bind]
  rfl

theorem value?_toDigits {n : Nat} (fits : n < UInt64.size) :
    NumberParts.value? ⟨false, Nat.toDigits 10 n, none, none⟩ = some (.int n) := by
  simp [NumberParts.value?, gather_toDigits fits]

theorem value?_toDigits_negative {n : Nat} (positive : n ≠ 0) (fits : n ≤ 0x8000000000000000) :
    NumberParts.value? ⟨true, Nat.toDigits 10 n, none, none⟩ = some (.int (-n)) := by
  have small : n < UInt64.size := Nat.lt_of_le_of_lt fits (by decide)
  simp [NumberParts.value?, gather_toDigits small, positive, Nat.not_lt.2 fits]

theorem number_toString {n : Int} (exact : IsExact n) (ended : Ended rest) :
    number ((toString n).toList ++ rest) = some (.int n, rest) := by
  obtain ⟨least, greatest⟩ := exact
  rw [Int.toString_eq_repr, Int.repr_eq_if]
  split
  · next positive =>
    have magnitude : (n.toNat : Int) = n := by omega
    -- There is no sign in front of the digits.
    have same : number (n.toNat.repr.toList ++ rest) =
        unsigned false (n.toNat.repr.toList ++ rest) := by
      obtain ⟨c, ds, digits, digit⟩ := toDigits_eq_cons n.toNat
      have noSign : c ≠ '-' := by
        rintro rfl
        cases digit
      rw [Nat.toList_repr, digits]
      simp [number, noSign]
    rw [same, Nat.toList_repr, unsigned_toDigits false ended, value?_toDigits, magnitude]
    · rfl
    · show n.toNat < 0x10000000000000000
      omega
  · next negative =>
    have magnitude : (-((-n).toNat : Int)) = n := by omega
    rw [String.toList_append]
    show unsigned true ((-n).toNat.repr.toList ++ rest) = _
    rw [Nat.toList_repr, unsigned_toDigits true ended,
      value?_toDigits_negative (by omega) (by omega), magnitude]
    rfl

/-! ## Numbers inside a text -/

/-- A reader takes the same part of a text, if the text goes on with something else than a number. -/
def IsLocal {β : Type} (read : List Char → Option (β × List Char)) : Prop :=
  ∀ {s : List Char} {b : β} {left rest : List Char}, Ended rest → read s = some (b, left) →
    read (s ++ rest) = some (b, left ++ rest)

theorem takeDigits_append_of_ended (s : List Char) (ended : Ended rest) :
    takeDigits (s ++ rest) = ((takeDigits s).1, (takeDigits s).2 ++ rest) := by
  induction s with
  | nil =>
    have none : ∀ c ∈ ([] : List Char), isDigit c = true := nofun
    exact takeDigits_append none ended
  | cons c s ih =>
    have ⟨digits, left⟩ := Prod.mk.inj ih
    cases digit : isDigit c <;> simp [takeDigits, digit, digits, left]

theorem isLocal_wholePart : IsLocal wholePart := by
  intro s b left rest ended found
  rw [wholePart] at found ⊢
  rw [takeDigits_append_of_ended s ended]
  generalize takeDigits s = taken at found ⊢
  rcases taken with ⟨_ | ⟨c, _ | ⟨d, ds⟩⟩, t⟩
  · cases found
  · obtain ⟨rfl, rfl⟩ : [c] = b ∧ t = left := by simpa using found
    simp
  · by_cases zero : c = '0'
    · simp [zero] at found
    · obtain ⟨rfl, rfl⟩ : c :: d :: ds = b ∧ t = left := by simpa [zero] using found
      simp [zero]

theorem isLocal_exponentDigits (negative : Bool) : IsLocal (exponentDigits negative) := by
  intro s b left rest ended found
  rw [exponentDigits] at found ⊢
  rw [takeDigits_append_of_ended s ended]
  generalize takeDigits s = taken at found ⊢
  rcases taken with ⟨_ | ⟨c, ds⟩, t⟩
  · cases found
  · cases found
    rfl

theorem isLocal_fractionPart : IsLocal fractionPart := by
  intro s b left rest ended found
  rcases s with _ | ⟨c, s⟩
  · cases found
    exact fractionPart_of_ended ended
  by_cases point : c = '.'
  · subst point
    simp only [fractionPart, List.cons_append] at found ⊢
    rw [takeDigits_append_of_ended s ended]
    generalize takeDigits s = taken at found ⊢
    rcases taken with ⟨_ | ⟨c, ds⟩, t⟩
    · cases found
    · cases found
      rfl
  · have none (s : List Char) : fractionPart (c :: s) = some (none, c :: s) := by
      simp [fractionPart, point]
    rw [none] at found
    cases found
    exact none _

theorem isLocal_exponentPart : IsLocal exponentPart := by
  intro s b left rest ended found
  rcases s with _ | ⟨c, s⟩
  · cases found
    exact exponentPart_of_ended ended
  by_cases letter : c = 'e' ∨ c = 'E'
  · rcases s with _ | ⟨d, s⟩
    · rcases letter with rfl | rfl <;> simp [exponentPart, exponentDigits, takeDigits] at found
    · by_cases plus : d = '+'
      · subst plus
        rcases letter with rfl | rfl <;> exact isLocal_exponentDigits false ended found
      · by_cases minus : d = '-'
        · subst minus
          rcases letter with rfl | rfl <;> exact isLocal_exponentDigits true ended found
        · have := @isLocal_exponentDigits false (d :: s) b left rest ended
          rcases letter with rfl | rfl <;> simp_all [exponentPart]
  · have none (s : List Char) : exponentPart (c :: s) = some (none, c :: s) := by
      simp [exponentPart, not_or.1 letter]
    rw [none] at found
    cases found
    exact none _

theorem isLocal_unsigned (negative : Bool) : IsLocal (unsigned negative) := by
  intro s v left rest ended found
  simp only [unsigned, Option.bind_eq_bind, Option.bind_eq_some_iff] at found ⊢
  obtain ⟨⟨whole, t⟩, first, ⟨fraction, t'⟩, second, ⟨exponent, t''⟩, third, v, value, ends⟩ := found
  cases ends
  exact ⟨_, isLocal_wholePart ended first, _, isLocal_fractionPart ended second, _,
    isLocal_exponentPart ended third, v, value, rfl⟩

theorem isLocal_number : IsLocal number := by
  intro s v left rest ended found
  rcases s with _ | ⟨c, s⟩
  · cases found
  by_cases minus : c = '-'
  · subst minus
    exact isLocal_unsigned true ended found
  · have read := @isLocal_unsigned false (c :: s) v left rest ended
    simp_all [number]

theorem number_begins {s left : List Char} {v : Json} (found : number s = some (v, left)) :
    ∃ c cs, s = c :: cs ∧ (c = '-' ∨ isDigit c = true) := by
  rcases s with _ | ⟨c, s⟩
  · cases found
  refine ⟨c, s, rfl, ?_⟩
  by_cases minus : c = '-'
  · exact .inl minus
  right
  refine Classical.byContradiction fun other => ?_
  have none : wholePart (c :: s) = none := by simp [wholePart, takeDigits, other]
  simp [number, minus, unsigned, none] at found

end LiveState.Json
