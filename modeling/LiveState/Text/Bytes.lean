/-!
# Texts by their bytes

Texts measured and cut in the bytes of their UTF-8 form.  A cut falls between two characters or it
fails; what it gives is the text again, in two parts.
-/

namespace LiveState.Text

def byteLength : List Char → Nat
  | [] => 0
  | c :: s => c.utf8Size + byteLength s

/-- Cut a text after a number of bytes.  There is no cut inside a character, and none beyond the
    end. -/
def splitBytes? : Nat → List Char → Option (List Char × List Char)
  | 0, s => some ([], s)
  | _ + 1, [] => none
  | n + 1, c :: s =>
    if c.utf8Size ≤ n + 1 then
      (splitBytes? (n + 1 - c.utf8Size) s).map fun p => (c :: p.1, p.2)
    else none

theorem byteLength_append (a b : List Char) :
    byteLength (a ++ b) = byteLength a + byteLength b := by
  induction a with
  | nil => simp [byteLength]
  | cons c a ih => simp [byteLength, ih, Nat.add_assoc]

theorem splitBytes?_zero (s : List Char) : splitBytes? 0 s = some ([], s) := by
  cases s <;> rfl

theorem splitBytes?_append (a b : List Char) :
    splitBytes? (byteLength a) (a ++ b) = some (a, b) := by
  induction a with
  | nil => exact splitBytes?_zero b
  | cons c a ih =>
    have positive := c.utf8Size_pos
    obtain ⟨n, hn⟩ : ∃ n, byteLength (c :: a) = n + 1 :=
      ⟨c.utf8Size + byteLength a - 1, by simp only [byteLength]; omega⟩
    have rest : n + 1 - c.utf8Size = byteLength a := by simp only [byteLength] at hn; omega
    have fits : c.utf8Size ≤ n + 1 := by simp only [byteLength] at hn; omega
    rw [hn, List.cons_append, splitBytes?, if_pos fits, rest, ih]
    rfl

/-- What stands before the first character `c` of a text, and what stands after it. -/
theorem eq_takeWhile_append {c d : Char} {s rest : List Char}
    (h : s.dropWhile (· != c) = d :: rest) : s = s.takeWhile (· != c) ++ c :: rest := by
  have first := List.head_dropWhile_not (· != c) (l := s) (by simp [h])
  simp only [h, List.head_cons, bne_eq_false_iff_eq] at first
  rw [← first, ← h, first, List.takeWhile_append_dropWhile]

end LiveState.Text
