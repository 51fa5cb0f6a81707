import PageBundle.Text.Utf8
import Mathlib.Data.UInt

/-!
# Texts read back from their bytes

`decode?_encode` says that strict decoding reads back every text from its UTF-8 bytes. A character
is ASCII exactly if its encoding is one byte below 0x80; all bytes of the other characters are at
least 0x80, so no byte of them is mistaken for an ASCII character.
-/

namespace PageBundle.Utf8

theorem toNat_ofNat {n : Nat} (small : n < 256) : (UInt8.ofNat n).toNat = n := by
  rw [UInt8.toNat_ofNat', Nat.mod_eq_of_lt small]

section Next

variable {a b c d : UInt8} (rest : Bytes)

theorem next_one (first : a.toNat < 0x80) : next (a :: rest) = .char (Char.ofNat a.toNat) rest := by
  have small : a < 0x80 := UInt8.lt_iff_toNat_lt.2 first
  simp [next, small]

theorem next_two (first : 0xC2 ≤ a.toNat ∧ a.toNat < 0xE0) (second : isTail b = true) :
    next (a :: b :: rest) = .char (Char.ofNat (a.toNat % 32 * 64 + tailBits b)) rest := by
  have large : ¬ a < 0x80 ∧ ¬ a < 0xC2 := by
    simp only [UInt8.lt_iff_toNat_lt, UInt8.reduceToNat]
    omega
  have small : a < 0xE0 := UInt8.lt_iff_toNat_lt.2 first.2
  simp [next, large, small, second]

theorem next_three (first : 0xE0 ≤ a.toNat ∧ a.toNat < 0xF0) (second : isSecondOfThree a b = true)
    (third : isTail c = true) : next (a :: b :: c :: rest) =
      .char (Char.ofNat (a.toNat % 16 * 4096 + tailBits b * 64 + tailBits c)) rest := by
  have large : ¬ a < 0x80 ∧ ¬ a < 0xC2 ∧ ¬ a < 0xE0 := by
    simp only [UInt8.lt_iff_toNat_lt, UInt8.reduceToNat]
    omega
  have small : a < 0xF0 := UInt8.lt_iff_toNat_lt.2 first.2
  simp [next, large, small, second, third]

theorem next_four (first : 0xF0 ≤ a.toNat ∧ a.toNat < 0xF5) (second : isSecondOfFour a b = true)
    (third : isTail c = true) (fourth : isTail d = true) : next (a :: b :: c :: d :: rest) =
      .char (Char.ofNat
        (a.toNat % 8 * 262144 + tailBits b * 4096 + tailBits c * 64 + tailBits d)) rest := by
  have large : ¬ a < 0x80 ∧ ¬ a < 0xC2 ∧ ¬ a < 0xE0 ∧ ¬ a < 0xF0 := by
    simp only [UInt8.lt_iff_toNat_lt, UInt8.reduceToNat]
    omega
  have small : a < 0xF5 := UInt8.lt_iff_toNat_lt.2 first.2
  simp [next, large, small, second, third, fourth]

end Next

/-- The byte that continues a character with the six lowest bits of a number. -/
theorem tail_ofNat (n : Nat) : isTail (UInt8.ofNat (n % 64 + 128)) = true ∧
    tailBits (UInt8.ofNat (n % 64 + 128)) = n % 64 := by
  have byte := toNat_ofNat (n := n % 64 + 128) (by omega)
  simp only [isTail, tailBits, byte, Bool.and_eq_true, decide_eq_true_eq, UInt8.le_iff_toNat_le,
    UInt8.lt_iff_toNat_lt, UInt8.reduceToNat]
  omega

/-- **A character is read back from its bytes.** -/
theorem next_utf8EncodeChar (c : Char) (rest : Bytes) :
    next (String.utf8EncodeChar c ++ rest) = .char c rest := by
  have valid : c.val.toNat < 0xD800 ∨ 0xDFFF < c.val.toNat ∧ c.val.toNat < 0x110000 := c.valid
  have same : Char.ofNat c.val.toNat = c := Char.ofNat_toNat c
  unfold String.utf8EncodeChar
  generalize c.val.toNat = v at valid same
  simp only
  split
  next one =>
    have first := toNat_ofNat (n := v) (by omega)
    rw [List.singleton_append, next_one rest (by omega), first, same]
  split
  next two =>
    have first := toNat_ofNat (n := v / 64 % 32 + 192) (by omega)
    obtain ⟨tail, bits⟩ := tail_ofNat v
    have code : (v / 64 % 32 + 192) % 32 * 64 + v % 64 = v := by omega
    rw [List.cons_append, List.singleton_append, next_two rest (by omega) tail, first, bits, code,
      same]
  split
  next three =>
    have first := toNat_ofNat (n := v / 4096 % 16 + 224) (by omega)
    have second := toNat_ofNat (n := v / 64 % 64 + 128) (by omega)
    obtain ⟨tail, bits⟩ := tail_ofNat v
    have code : (v / 4096 % 16 + 224) % 16 * 4096 + v / 64 % 64 * 64 + v % 64 = v := by omega
    have follows : isSecondOfThree (UInt8.ofNat (v / 4096 % 16 + 224))
        (UInt8.ofNat (v / 64 % 64 + 128)) = true := by
      simp only [isSecondOfThree, isTail, beq_iff_eq, ← UInt8.toNat_inj, first, second,
        UInt8.le_iff_toNat_le, UInt8.lt_iff_toNat_lt, UInt8.reduceToNat]
      grind
    rw [List.cons_append, List.cons_append, List.singleton_append,
      next_three rest (by omega) follows tail, first, (tail_ofNat (v / 64)).2, bits, code, same]
  next four =>
    have first := toNat_ofNat (n := v / 262144 % 8 + 240) (by omega)
    have second := toNat_ofNat (n := v / 4096 % 64 + 128) (by omega)
    obtain ⟨tail, bits⟩ := tail_ofNat v
    obtain ⟨tail', bits'⟩ := tail_ofNat (v / 64)
    have code : (v / 262144 % 8 + 240) % 8 * 262144 + v / 4096 % 64 * 4096 + v / 64 % 64 * 64 +
        v % 64 = v := by omega
    have follows : isSecondOfFour (UInt8.ofNat (v / 262144 % 8 + 240))
        (UInt8.ofNat (v / 4096 % 64 + 128)) = true := by
      simp only [isSecondOfFour, isTail, beq_iff_eq, ← UInt8.toNat_inj, first, second,
        UInt8.le_iff_toNat_le, UInt8.lt_iff_toNat_lt, UInt8.reduceToNat]
      grind
    rw [List.cons_append, List.cons_append, List.cons_append, List.singleton_append,
      next_four rest (by omega) follows tail' tail, first, (tail_ofNat (v / 4096)).2, bits', bits,
      code, same]

theorem decodeFrom_encode (index : Nat) (read cs : List Char) :
    decodeFrom index read (encode cs) = .ok (read.reverse ++ cs) := by
  induction cs generalizing index read with
  | nil =>
    rw [encode_nil, decodeFrom]
    simp [next]
  | cons c cs ih =>
    have whole : encode (c :: cs) = String.utf8EncodeChar c ++ encode cs := rfl
    rw [decodeFrom, whole, next_utf8EncodeChar]
    simp [ih]

/-- **Every text is read back from its bytes.** -/
theorem decode?_encode (cs : List Char) : decode? (encode cs) = some cs := by
  rw [decode?, decode, decodeFrom_encode]
  rfl

/-- The characters outside ASCII. -/
def isWide (c : Char) : Bool :=
  0x80 ≤ c.toNat

/-- An ASCII character is one byte. -/
theorem encode_narrow {c : Char} (narrow : isWide c = false) :
    String.utf8EncodeChar c = [UInt8.ofNat c.toNat] := by
  simp only [isWide, decide_eq_false_iff_not, Nat.not_le] at narrow
  have small : c.val.toNat ≤ 127 := Nat.le_of_lt_succ narrow
  simp only [String.utf8EncodeChar, small, if_true]
  rfl

theorem ofNat_narrow {c : Char} (narrow : isWide c = false) : UInt8.ofNat c.toNat < 0x80 := by
  simp only [isWide, decide_eq_false_iff_not, Nat.not_le] at narrow
  rw [UInt8.lt_iff_toNat_lt, toNat_ofNat (by omega)]
  exact narrow

/-- The bytes that lead or continue a character of several bytes are no ASCII bytes. -/
theorem high_ofNat {n : Nat} (small : n < 256) (large : 0x80 ≤ n) : ¬ UInt8.ofNat n < 0x80 := by
  rw [UInt8.lt_iff_toNat_lt, toNat_ofNat small]
  exact Nat.not_lt.2 large

/-- No byte of another character is a byte of an ASCII character. -/
theorem encode_wide {c : Char} (wide : isWide c = true) :
    ∀ b ∈ String.utf8EncodeChar c, ¬ b < 0x80 := by
  have large : ¬ c.val.toNat ≤ 127 := Nat.not_le.2 (of_decide_eq_true wide)
  unfold String.utf8EncodeChar
  generalize c.val.toNat = v at large
  simp only [large, if_false]
  have tail (n : Nat) : ¬ UInt8.ofNat (n % 64 + 128) < 0x80 := high_ofNat (by omega) (by omega)
  have lead (k n : Nat) (room : 0 < k ∧ k ≤ 32) : ¬ UInt8.ofNat (n % k + (256 - 2 * k)) < 0x80 := by
    have := Nat.mod_lt n room.1
    exact high_ofNat (by omega) (by omega)
  split
  next two => simpa only [List.forall_mem_cons] using ⟨lead 32 _ (by decide), tail _, nofun⟩
  split
  next three =>
    simpa only [List.forall_mem_cons] using ⟨lead 16 _ (by decide), tail _, tail _, nofun⟩
  next four =>
    simpa only [List.forall_mem_cons] using ⟨lead 8 _ (by decide), tail _, tail _, tail _, nofun⟩

/-- Bytes below 0x80 are the bytes of ASCII characters. -/
theorem exists_encode_eq {bs : Bytes} (low : ∀ b ∈ bs, b < 0x80) :
    ∃ cs, encode cs = bs ∧ cs.filter isWide = [] := by
  induction bs with
  | nil => exact ⟨[], rfl, rfl⟩
  | cons b bs ih =>
    obtain ⟨cs, same, narrow⟩ := ih fun c mem => low c (List.mem_cons_of_mem b mem)
    have small : b.toNat < 0x80 := UInt8.lt_iff_toNat_lt.1 (low b (by simp))
    have valid : b.toNat.isValidChar := .inl (by omega)
    have code : (Char.ofNat b.toNat).toNat = b.toNat := by
      rw [Char.ofNat, dif_pos valid]
      rfl
    have first : isWide (Char.ofNat b.toNat) = false := by simpa [isWide, code] using small
    refine ⟨Char.ofNat b.toNat :: cs, ?_, by simp [first, narrow]⟩
    rw [encode, List.flatMap_cons, encode_narrow first, code, UInt8.ofNat_toNat]
    exact congrArg (b :: ·) same

end PageBundle.Utf8
