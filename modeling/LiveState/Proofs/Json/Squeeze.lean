import LiveState.Json.Parser
import LiveState.Json.Printer

/-! # Layout of JSON texts

The compact and the indented text of a value are the same but for the blanks outside of string
literals.
-/

namespace LiveState.Json

/-! ## Leaving out blanks -/

/-- Where in a JSON text a character stands. -/
inductive Spot where
  | outside
  | literal
  /-- After a backslash in a literal. -/
  | escape
  deriving DecidableEq, Repr

/-- Leave out the blanks outside of string literals. -/
def squeeze : Spot → List Char → List Char
  | _, [] => []
  | .outside, c :: s =>
    if c = '"' then c :: squeeze .literal s
    else if isBlank c then squeeze .outside s
    else c :: squeeze .outside s
  | .literal, c :: s =>
    c :: squeeze (if c = '"' then .outside else if c = '\\' then .escape else .literal) s
  | .escape, c :: s => c :: squeeze .literal s

/-- Characters that are neither blank nor begin a literal. -/
def IsSolid (c : Char) : Prop := c ≠ '"' ∧ isBlank c = false

instance (c : Char) : Decidable (IsSolid c) := inferInstanceAs (Decidable (_ ∧ _))

variable {s rest : List Char} {c : Char}

theorem forall_isSolid (h : s.all (fun c => decide (IsSolid c)) = true) : ∀ c ∈ s, IsSolid c := by
  simpa using h

theorem squeeze_cons (h : IsSolid c) (rest : List Char) :
    squeeze .outside (c :: rest) = c :: squeeze .outside rest := by
  simp [squeeze, h.1, h.2]

theorem squeeze_solid (h : ∀ c ∈ s, IsSolid c) (rest : List Char) :
    squeeze .outside (s ++ rest) = s ++ squeeze .outside rest := by
  induction s with
  | nil => rfl
  | cons c s ih =>
    rw [List.cons_append, squeeze_cons (h c List.mem_cons_self),
      ih fun d there => h d (List.mem_cons_of_mem c there), List.cons_append]

theorem squeeze_blanks (h : ∀ c ∈ s, isBlank c = true) (rest : List Char) :
    squeeze .outside (s ++ rest) = squeeze .outside rest := by
  induction s with
  | nil => rfl
  | cons c s ih =>
    have blank := h c List.mem_cons_self
    have other : c ≠ '"' := by
      rintro rfl
      cases blank
    simp only [List.cons_append, squeeze, other, blank, if_false, if_true]
    exact ih fun d there => h d (List.mem_cons_of_mem c there)

theorem squeeze_newline (level : Nat) (rest : List Char) :
    squeeze .outside (newline level ++ rest) = squeeze .outside rest := by
  refine squeeze_blanks ?_ rest
  intro c there
  simp only [newline, List.mem_cons, List.mem_replicate] at there
  obtain rfl | ⟨-, rfl⟩ := there <;> rfl

/-! ## Literals -/

theorem squeeze_backslash (c : Char) (rest : List Char) :
    squeeze .literal ('\\' :: c :: rest) = '\\' :: c :: squeeze .literal rest := rfl

theorem squeeze_hexDigit {n : Nat} (h : n < 16) (rest : List Char) :
    squeeze .literal (hexDigit n :: rest) = hexDigit n :: squeeze .literal rest := by
  have all : ∀ k < 16, hexDigit k ≠ '"' ∧ hexDigit k ≠ '\\' := by decide
  simp [squeeze, all n h]

/-- A backslash takes the next character with it, and nothing else leaves the literal. -/
theorem squeeze_escape (c : Char) (rest : List Char) :
    squeeze .literal (escape c ++ rest) = escape c ++ squeeze .literal rest := by
  unfold escape
  split
  · exact squeeze_backslash ..
  split
  · exact squeeze_backslash ..
  split
  · exact squeeze_backslash ..
  split
  · exact squeeze_backslash ..
  split
  · exact squeeze_backslash ..
  split
  · exact squeeze_backslash ..
  split
  · exact squeeze_backslash ..
  split
  · next control =>
    have zero : '0' = hexDigit 0 := rfl
    simp only [List.cons_append, List.nil_append, squeeze_backslash, zero,
      squeeze_hexDigit (show 0 < 16 by omega), squeeze_hexDigit (show c.toNat / 16 < 16 by omega),
      squeeze_hexDigit (show c.toNat % 16 < 16 by omega)]
  · next quote backslash _ _ _ _ _ _ => simp [squeeze, quote, backslash]

theorem squeeze_literal (s : String) (rest : List Char) :
    squeeze .outside (literal s ++ rest) = literal s ++ squeeze .outside rest := by
  have inside (cs : List Char) : squeeze .literal (cs.flatMap escape ++ '"' :: rest) =
      cs.flatMap escape ++ '"' :: squeeze .outside rest := by
    induction cs with
    | nil => rfl
    | cons c cs ih =>
      rw [List.flatMap_cons, List.append_assoc, squeeze_escape, ih, List.append_assoc]
  simp [literal, squeeze, inside]

/-! ## Numbers -/

theorem isSolid_of_mem_toDigits {n : Nat} (h : c ∈ Nat.toDigits 10 n) : IsSolid c := by
  have digit := Nat.isDigit_of_mem_toDigits (by decide) (by decide) h
  constructor
  · rintro rfl
    cases digit
  · cases blank : isBlank c with
    | false => rfl
    | true =>
      simp only [isBlank, Bool.or_eq_true, beq_iff_eq] at blank
      rcases blank with ((rfl | rfl) | rfl) | rfl <;> cases digit

theorem isSolid_nat (n : Nat) : ∀ c ∈ (toString n).toList, IsSolid c := by
  intro c there
  rw [Nat.toString_eq_repr, Nat.toList_repr] at there
  exact isSolid_of_mem_toDigits there

theorem isSolid_int (n : Int) : ∀ c ∈ (toString n).toList, IsSolid c := by
  rw [Int.toString_eq_repr, Int.repr_eq_if]
  split
  · exact isSolid_nat _
  · rw [String.toList_append, List.forall_mem_append]
    exact ⟨forall_isSolid rfl, isSolid_nat _⟩

theorem isSolid_write {ds : List Char} (h : ∀ c ∈ ds, IsSolid c) (x : Int) :
    ∀ c ∈ (Decimal.Layout.json.write ds x).toList, IsSolid c := by
  have zeros (n : Nat) : ∀ c ∈ List.replicate n '0', IsSolid c := by
    intro c there
    rw [List.eq_of_mem_replicate there]
    decide
  have take (n : Nat) : ∀ c ∈ ds.take n, IsSolid c := fun c there => h c (List.mem_of_mem_take there)
  have drop (n : Nat) : ∀ c ∈ ds.drop n, IsSolid c := fun c there => h c (List.mem_of_mem_drop there)
  have zero : IsSolid '0' := by decide
  have point : IsSolid '.' := by decide
  have suffix : ∀ c ∈ Decimal.Layout.json.wholeSuffix.toList, IsSolid c := forall_isSolid rfl
  have mark : ∀ c ∈ (if x < 0 then Decimal.Layout.json.negativeMark
      else Decimal.Layout.json.positiveMark).toList, IsSolid c := by
    split <;> exact forall_isSolid rfl
  unfold Decimal.Layout.write
  simp only
  split
  · split
    · simp only [String.toList_ofList, List.forall_mem_append, List.forall_mem_cons]
      exact ⟨⟨zero, point, zeros _⟩, h⟩
    · split
      · simp only [String.toList_append, String.toList_ofList, List.forall_mem_append]
        exact ⟨⟨take _, zeros _⟩, suffix⟩
      · simp only [String.toList_ofList, List.forall_mem_append, List.forall_mem_cons]
        exact ⟨⟨take _, zeros _⟩, point, drop _⟩
  · simp only [String.toList_append, String.toList_ofList, List.forall_mem_append]
    refine ⟨⟨?_, mark⟩, isSolid_nat _⟩
    split
    · exact take _
    · simp only [List.forall_mem_append, List.forall_mem_cons]
      exact ⟨take _, point, drop _⟩

theorem isSolid_float (x : Float) : ∀ c ∈ (Decimal.Layout.json.render x).toList, IsSolid c := by
  have sign : ∀ c ∈ (if Decimal.hasSign x then "-" else "").toList, IsSolid c := by
    split <;> exact forall_isSolid rfl
  have digits (n : Nat) : ∀ c ∈ Decimal.stripZeros (Nat.toDigits 10 n), IsSolid c := by
    intro c there
    refine isSolid_of_mem_toDigits (n := n) ?_
    have kept := (List.dropWhile_sublist _).subset (List.mem_reverse.1 there)
    exact List.mem_reverse.1 kept
  unfold Decimal.Layout.render
  simp only
  split
  · rw [String.toList_append, String.toList_append, List.forall_mem_append, List.forall_mem_append]
    exact ⟨⟨sign, forall_isSolid rfl⟩, forall_isSolid rfl⟩
  · rw [String.toList_append, List.forall_mem_append]
    exact ⟨sign, isSolid_write (digits _) _⟩

theorem squeeze_scalarText (v : Json) (rest : List Char) :
    squeeze .outside (v.scalarText ++ rest) = v.scalarText ++ squeeze .outside rest := by
  cases v with
  | null => exact squeeze_solid (forall_isSolid rfl) rest
  | bool b => cases b <;> exact squeeze_solid (forall_isSolid rfl) rest
  | int n => exact squeeze_solid (isSolid_int n) rest
  | float x => exact squeeze_solid (isSolid_float x) rest
  | str s => exact squeeze_literal s rest
  | arr items | obj fields => rfl

/-! ## Values -/

mutual

/-- Without its blanks the indented text of a value is the compact one. -/
theorem squeeze_prettyChars (level : Nat) (v : Json) (rest : List Char) :
    squeeze .outside (v.prettyChars level ++ rest) = v.compactChars ++ squeeze .outside rest := by
  match v with
  | .arr [] => rfl
  | .arr (v :: vs) =>
    simp only [prettyChars, compactChars, List.cons_append, List.append_assoc, List.nil_append]
    rw [squeeze_cons (by decide), squeeze_prettyItems, squeeze_newline, squeeze_cons (by decide)]
  | .obj [] => rfl
  | .obj (f :: fs) =>
    simp only [prettyChars, compactChars, List.cons_append, List.append_assoc, List.nil_append]
    rw [squeeze_cons (by decide), squeeze_prettyFields, squeeze_newline, squeeze_cons (by decide)]
  | .null => exact squeeze_scalarText .null rest
  | .bool b => exact squeeze_scalarText (.bool b) rest
  | .int n => exact squeeze_scalarText (.int n) rest
  | .float x => exact squeeze_scalarText (.float x) rest
  | .str s => exact squeeze_scalarText (.str s) rest

theorem squeeze_prettyItems (level : Nat) (vs : List Json) (rest : List Char) :
    squeeze .outside (prettyItems level vs ++ rest) = compactItems vs ++ squeeze .outside rest := by
  match vs with
  | [] => rfl
  | [v] =>
    simp only [prettyItems, compactItems, List.append_assoc]
    rw [squeeze_newline, squeeze_prettyChars]
  | v :: w :: vs =>
    simp only [prettyItems, compactItems, List.append_assoc, List.cons_append]
    rw [squeeze_newline, squeeze_prettyChars, squeeze_cons (by decide), squeeze_prettyItems]

theorem squeeze_prettyFields (level : Nat) (fs : List (String × Json)) (rest : List Char) :
    squeeze .outside (prettyFields level fs ++ rest) =
      compactFields fs ++ squeeze .outside rest := by
  match fs with
  | [] => rfl
  | [(k, v)] =>
    simp only [prettyFields, compactFields, List.append_assoc, List.cons_append]
    rw [squeeze_newline, squeeze_literal, squeeze_cons (by decide),
      ← List.singleton_append (x := ' '), squeeze_blanks (List.forall_mem_singleton.2 rfl),
      squeeze_prettyChars]
  | (k, v) :: f :: fs =>
    simp only [prettyFields, compactFields, List.append_assoc, List.cons_append]
    rw [squeeze_newline, squeeze_literal, squeeze_cons (by decide),
      ← List.singleton_append (x := ' '), squeeze_blanks (List.forall_mem_singleton.2 rfl),
      squeeze_prettyChars, squeeze_cons (by decide), squeeze_prettyFields]

end

/-- The indented text of an object, with a line break behind it, ends in one line break, and without
    its blanks it is the compact text. -/
theorem squeeze_pretty_obj (fields : List (String × Json)) :
    squeeze .outside ((Json.obj fields).pretty ++ "\n").toList = (Json.obj fields).compact.toList ∧
      (Json.obj fields).pretty.toList.getLast? = some '\x7d' := by
  constructor
  · simp only [pretty, compact, String.toList_append, String.toList_ofList, squeeze_prettyChars]
    exact List.append_nil _
  · rw [pretty, String.toList_ofList]
    cases fields with
    | nil => rfl
    | cons f fs =>
      rw [prettyChars]
      exact List.getLast?_concat

end LiveState.Json
