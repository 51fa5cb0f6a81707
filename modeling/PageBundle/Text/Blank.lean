/-!
# White space

A blank is a character of the Unicode property White_Space. Trimming a text removes the blanks, or
the characters of another class, at one end or at both.
-/

namespace PageBundle.Text

/-- Membership in the Unicode property White_Space. -/
def isBlank (c : Char) : Bool :=
  (0x09 ≤ c.toNat && c.toNat ≤ 0x0D) || c.toNat == 0x20 || c.toNat == 0x85 || c.toNat == 0xA0 ||
  c.toNat == 0x1680 || (0x2000 ≤ c.toNat && c.toNat ≤ 0x200A) || c.toNat == 0x2028 ||
  c.toNat == 0x2029 || c.toNat == 0x202F || c.toNat == 0x205F || c.toNat == 0x3000

/-- The text without the characters of class `p` at its start. -/
def dropStart (p : Char → Bool) (cs : List Char) : List Char :=
  cs.dropWhile p

/-- The text without the characters of class `p` at its end. -/
def dropEnd (p : Char → Bool) (cs : List Char) : List Char :=
  (cs.reverse.dropWhile p).reverse

/-- The text without the characters of class `p` at either end. -/
def dropEnds (p : Char → Bool) (cs : List Char) : List Char :=
  dropEnd p (dropStart p cs)

/-- The text without the blanks around it. -/
def trim (s : String) : String :=
  String.ofList (dropEnds isBlank s.toList)

/-- A text of blanks only, the empty one included. -/
def isBlankText (s : String) : Bool :=
  s.toList.all isBlank

theorem length_dropWhile_le {α : Type} (p : α → Bool) (xs : List α) :
    (xs.dropWhile p).length ≤ xs.length := by
  have := congrArg List.length (List.takeWhile_append_dropWhile (p := p) (l := xs))
  simp only [List.length_append] at this
  omega

theorem dropEnd_append_singleton {p : Char → Bool} {cs : List Char} {c : Char}
    (h : p c = false) : dropEnd p (cs ++ [c]) = cs ++ [c] := by
  simp [dropEnd, h]

/-- Nothing of the class is left at the end. -/
theorem getLast?_dropEnd {p : Char → Bool} {cs : List Char} {c : Char}
    (last : (dropEnd p cs).getLast? = some c) : p c = false := by
  rw [dropEnd, List.getLast?_reverse] at last
  have first := List.head?_dropWhile_not p cs.reverse
  rw [last] at first
  exact first

theorem dropEnd_eq_self {p : Char → Bool} {cs : List Char}
    (kept : ∀ c, cs.getLast? = some c → p c = false) : dropEnd p cs = cs := by
  rcases List.eq_nil_or_concat cs with rfl | ⟨start, last, rfl⟩
  · rfl
  · rw [List.concat_eq_append] at kept ⊢
    exact dropEnd_append_singleton (kept last List.getLast?_concat)

/-- Nothing of the class is left at the start. -/
theorem head?_dropEnds {p : Char → Bool} {cs : List Char} {c : Char}
    (first : (dropEnds p cs).head? = some c) : p c = false := by
  have begins : dropEnds p cs <+: dropStart p cs := by
    rw [dropEnds, dropEnd, ← List.reverse_suffix, List.reverse_reverse]
    exact List.dropWhile_suffix p
  obtain ⟨rest, split⟩ := begins
  have start := List.head?_dropWhile_not p cs
  rw [← dropStart, ← split, List.head?_append, first] at start
  exact start

end PageBundle.Text
