import LiveState.Json.Parser
import LiveState.Json.Printer

/-! # String literals read back -/

namespace LiveState.Json

theorem hexValue?_hexDigit {n : Nat} (h : n < 16) : hexValue? (hexDigit n) = some n := by
  have all : ∀ k < 16, hexValue? (hexDigit k) = some k := by decide
  exact all n h

theorem hex4?_hexDigit {n : Nat} (h : n < 0x20) :
    hex4? '0' '0' (hexDigit (n / 16)) (hexDigit (n % 16)) = some n := by
  have zero : hexValue? '0' = some 0 := rfl
  simp only [hex4?, zero, hexValue?_hexDigit (show n / 16 < 16 by omega),
    hexValue?_hexDigit (show n % 16 < 16 by omega), Option.bind_eq_bind, Option.bind_some,
    Option.pure_def, Option.some.injEq]
  omega

theorem stringChar_escape (c : Char) (s : List Char) :
    stringChar (escape c ++ s) = some (c, s) := by
  rw [escape]
  split
  · next quote => rw [quote]; rfl
  split
  · next backslash => rw [backslash]; rfl
  split
  · next backspace => rw [backspace]; rfl
  split
  · next formFeed => rw [formFeed]; rfl
  split
  · next lineFeed => rw [lineFeed]; rfl
  split
  · next carriageReturn => rw [carriageReturn]; rfl
  split
  · next tab => rw [tab]; rfl
  split
  · next control =>
    -- Control characters are no halves of a pair.
    have high : isHighSurrogate c.toNat = false := by
      simp [isHighSurrogate]
      omega
    have low : isLowSurrogate c.toNat = false := by
      simp [isLowSurrogate]
      omega
    simp [stringChar, hex4?_hexDigit control, high, low]
  · next quote backslash _ _ _ _ _ printable =>
    simp [stringChar, backslash, printable]

theorem escape_eq_cons (c : Char) : ∃ d ds, escape c = d :: ds ∧ d ≠ '"' := by
  rw [escape]
  split
  · exact ⟨_, _, rfl, by decide⟩
  · next quote =>
    repeat' split
    -- Whatever is escaped begins with a backslash.
    all_goals first
      | exact ⟨c, [], rfl, quote⟩
      | exact ⟨_, _, rfl, by decide⟩

theorem length_le_flatMap_escape (cs : List Char) : cs.length ≤ (cs.flatMap escape).length := by
  induction cs with
  | nil => exact Nat.le_refl 0
  | cons c cs ih =>
    obtain ⟨d, ds, some, -⟩ := escape_eq_cons c
    rw [List.flatMap_cons, List.length_append, some, List.length_cons, List.length_cons]
    omega

theorem stringChars_escape (cs rest : List Char) {fuel : Nat} (enough : cs.length ≤ fuel) :
    stringChars fuel (cs.flatMap escape ++ '"' :: rest) = some (cs, rest) := by
  induction cs generalizing fuel with
  | nil => cases fuel <;> rfl
  | cons c cs ih =>
    cases fuel with
    | zero => cases enough
    | succ fuel =>
      obtain ⟨d, ds, first, other⟩ := escape_eq_cons c
      have read := stringChar_escape c (cs.flatMap escape ++ '"' :: rest)
      rw [List.flatMap_cons, List.append_assoc]
      rw [first, List.cons_append] at read ⊢
      rw [stringChars, read]
      · simp [ih (Nat.le_of_succ_le_succ enough)]
      -- The literal does not end before this character.
      · intro _ ends
        exact other (List.cons.inj ends).1

theorem string_literal (s : String) (rest : List Char) :
    string (s.toList.flatMap escape ++ '"' :: rest) = some (s, rest) := by
  have enough := length_le_flatMap_escape s.toList
  rw [string, stringChars_escape]
  · simp
  · rw [List.length_append]
    omega

theorem literal_append (s : String) (rest : List Char) :
    literal s ++ rest = '"' :: (s.toList.flatMap escape ++ '"' :: rest) := by
  simp [literal]

theorem scalar_literal (s : String) (rest : List Char) :
    scalar (literal s ++ rest) = some (.str s, rest) := by
  rw [literal_append]
  show (string (s.toList.flatMap escape ++ '"' :: rest)).map _ = _
  rw [string_literal]
  rfl

end LiveState.Json
