/-!
# Searching and replacing

`find?` looks for the first place where a recogniser succeeds, `breakOn?` cuts a text at the first
occurrence of a pattern. `replaceAll` rewrites the occurrences that a scan from the left meets.
-/

namespace PageBundle.Text

variable {α : Type}

/-- The first place in `cs` where `p` succeeds: the text before it, which begins with `passed`, held
backwards, and what `p` gives. -/
def findFrom (p : List Char → Option α) (passed : List Char) :
    List Char → Option (List Char × α)
  | [] => (p []).map fun a => (passed.reverse, a)
  | c :: cs =>
    match p (c :: cs) with
    | some a => some (passed.reverse, a)
    | none => findFrom p (c :: passed) cs

/-- The text before the first place where `p` succeeds, and what it gives there. -/
def find? (p : List Char → Option α) (cs : List Char) : Option (List Char × α) :=
  findFrom p [] cs

/-- What follows `pattern` if the text begins with it. -/
def dropPattern? : List Char → List Char → Option (List Char)
  | [], cs => some cs
  | _ :: _, [] => none
  | x :: pattern, c :: cs => if c == x then dropPattern? pattern cs else none

/-- The text before the first occurrence of `pattern` and the text after it. -/
def breakOn? (pattern : List Char) (cs : List Char) : Option (List Char × List Char) :=
  find? (dropPattern? pattern) cs

/-- Whether `pattern` occurs in the text. -/
def contains (pattern : List Char) (cs : List Char) : Bool :=
  (breakOn? pattern cs).isSome

/-- Passes over `skip` characters, then writes `new` for each occurrence of `pattern`. -/
def replaceFrom (pattern new : List Char) : Nat → List Char → List Char
  | _, [] => []
  | skip + 1, _ :: cs => replaceFrom pattern new skip cs
  | 0, c :: cs =>
    if pattern.isPrefixOf (c :: cs) then
      new ++ replaceFrom pattern new (pattern.length - 1) cs
    else
      c :: replaceFrom pattern new 0 cs

/-- The text with each occurrence of a non-empty pattern, met from the left, written as `new`. -/
def replaceAll (pattern new cs : List Char) : List Char :=
  replaceFrom pattern new 0 cs

theorem dropPattern?_eq_some_iff {pattern cs rest : List Char} :
    dropPattern? pattern cs = some rest ↔ cs = pattern ++ rest := by
  induction pattern generalizing cs with
  | nil => simp [dropPattern?, eq_comm]
  | cons x pattern ih =>
    cases cs with
    | nil => simp [dropPattern?]
    | cons c cs =>
      by_cases h : c = x
      · simp [dropPattern?, h, ih]
      · simp [dropPattern?, h]

theorem exists_of_findFrom {p : List Char → Option α} {passed cs before : List Char} {a : α}
    (h : findFrom p passed cs = some (before, a)) :
    ∃ between rest, before = passed.reverse ++ between ∧ cs = between ++ rest ∧
      p rest = some a := by
  induction cs generalizing passed with
  | nil =>
    obtain ⟨b, hb, hp⟩ := Option.map_eq_some_iff.1 h
    cases hp
    exact ⟨[], [], by simp, rfl, hb⟩
  | cons c cs ih =>
    unfold findFrom at h
    split at h
    · rename_i b hb
      cases h
      exact ⟨[], c :: cs, by simp, rfl, hb⟩
    · obtain ⟨between, rest, hbefore, hcs, hp⟩ := ih h
      exact ⟨c :: between, rest, by simp [hbefore], by simp [hcs], hp⟩

/-- A find splits the text: what was passed over is followed by a place where `p` succeeds. -/
theorem exists_of_find? {p : List Char → Option α} {cs before : List Char} {a : α}
    (h : find? p cs = some (before, a)) : ∃ rest, cs = before ++ rest ∧ p rest = some a := by
  obtain ⟨between, rest, hbefore, hcs, hp⟩ := exists_of_findFrom h
  exact ⟨rest, by simpa [hbefore] using hcs, hp⟩

theorem eq_append_of_breakOn? {pattern cs before after : List Char}
    (h : breakOn? pattern cs = some (before, after)) : cs = before ++ pattern ++ after := by
  obtain ⟨rest, hcs, hp⟩ := exists_of_find? h
  rw [dropPattern?_eq_some_iff] at hp
  simp [hcs, hp]

/-- Something is found exactly if `p` succeeds somewhere. -/
theorem isSome_findFrom_iff {p : List Char → Option α} {passed cs : List Char} :
    (findFrom p passed cs).isSome = true ↔
      ∃ before rest, cs = before ++ rest ∧ (p rest).isSome = true := by
  constructor
  · intro found
    obtain ⟨⟨before, a⟩, h⟩ := Option.isSome_iff_exists.1 found
    obtain ⟨between, rest, -, split, success⟩ := exists_of_findFrom h
    exact ⟨between, rest, split, by rw [success]; rfl⟩
  · rintro ⟨before, rest, rfl, success⟩
    induction before generalizing passed with
    | nil =>
      cases rest with
      | nil => simpa [findFrom] using success
      | cons c cs =>
        obtain ⟨a, ha⟩ := Option.isSome_iff_exists.1 success
        simp [findFrom, ha]
    | cons c before ih =>
      rw [List.cons_append, findFrom]
      split
      · rfl
      · exact ih

theorem contains_iff {pattern cs : List Char} : contains pattern cs = true ↔ pattern <:+: cs := by
  rw [contains, breakOn?, find?, isSome_findFrom_iff]
  constructor
  · rintro ⟨before, rest, rfl, success⟩
    obtain ⟨after, h⟩ := Option.isSome_iff_exists.1 success
    rw [dropPattern?_eq_some_iff] at h
    exact ⟨before, after, by simp [h]⟩
  · rintro ⟨before, after, rfl⟩
    refine ⟨before, pattern ++ after, by simp, ?_⟩
    rw [dropPattern?_eq_some_iff.2 rfl]
    rfl

end PageBundle.Text
