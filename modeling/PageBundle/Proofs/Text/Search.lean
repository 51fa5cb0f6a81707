import PageBundle.Text.Letter
import PageBundle.Text.Search
import Mathlib.Data.List.Basic

/-!
# Searching and replacing

What is found is characterised by where it stands: at the first place that fits
(`find?_eq_some_iff`), with nothing in the text before it (`Nowhere`). Replacing works
block by block, if no occurrence of the pattern reaches from one block into another (`Becomes`).
-/

namespace PageBundle.Text

/-! ## Finding -/

section Finding

variable {α : Type} {p : List Char → Option α}

/-- `p` succeeds nowhere in the text `cs` when `rest` follows it. -/
def Nowhere (p : List Char → Option α) (rest cs : List Char) : Prop :=
  ∀ x y, cs = x ++ y → y ≠ [] → p (y ++ rest) = none

@[simp] theorem nowhere_nil (rest : List Char) : Nowhere p rest [] := by
  intro x y split filled
  exact absurd (List.append_eq_nil_iff.1 split.symm).2 filled

theorem nowhere_cons {c : Char} {cs rest : List Char} :
    Nowhere p rest (c :: cs) ↔ p (c :: (cs ++ rest)) = none ∧ Nowhere p rest cs := by
  constructor
  · intro nowhere
    refine ⟨nowhere [] (c :: cs) rfl (List.cons_ne_nil c cs), fun x y split filled => ?_⟩
    exact nowhere (c :: x) y (by rw [split]; rfl) filled
  · rintro ⟨here, later⟩ x y split filled
    cases x with
    | nil =>
      obtain rfl : c :: cs = y := split
      exact here
    | cons d x => exact later x y (List.cons.inj split).2 filled

theorem nowhere_append {xs ys rest : List Char} :
    Nowhere p rest (xs ++ ys) ↔ Nowhere p (ys ++ rest) xs ∧ Nowhere p rest ys := by
  induction xs with
  | nil => simp
  | cons x xs ih =>
    rw [List.cons_append, nowhere_cons, ih, nowhere_cons, List.append_assoc, and_assoc]

/-- What begins with a certain character is nowhere in a text without it. -/
theorem nowhere_of_notMem {x : Char} (begins : ∀ c cs, c ≠ x → p (c :: cs) = none)
    {cs : List Char} (free : x ∉ cs) (rest : List Char) : Nowhere p rest cs := by
  induction cs with
  | nil => exact nowhere_nil rest
  | cons c cs ih =>
    rw [List.mem_cons, not_or] at free
    exact nowhere_cons.2 ⟨begins c _ (Ne.symm free.1), ih free.2⟩

theorem findFrom_of_some {passed cs : List Char} {a : α} (here : p cs = some a) :
    findFrom p passed cs = some (passed.reverse, a) := by
  cases cs with
  | nil => simp [findFrom, here]
  | cons c cs => simp [findFrom, here]

/-- A search goes through a text in which nothing is found. -/
theorem findFrom_append_of_nowhere {cs rest : List Char} (nowhere : Nowhere p rest cs)
    (passed : List Char) :
    findFrom p passed (cs ++ rest) = findFrom p (cs.reverse ++ passed) rest := by
  induction cs generalizing passed with
  | nil => rfl
  | cons c cs ih =>
    rw [nowhere_cons] at nowhere
    rw [List.cons_append, findFrom, nowhere.1]
    simp only
    rw [ih nowhere.2, List.reverse_cons, List.append_assoc]
    rfl

/-- A find is the first: `p` succeeds behind the text before it and nowhere in that text. -/
theorem findFrom_eq_some_iff {passed cs before : List Char} {a : α} :
    findFrom p passed cs = some (before, a) ↔
      ∃ between rest, before = passed.reverse ++ between ∧ cs = between ++ rest ∧ p rest = some a ∧
        Nowhere p rest between := by
  constructor
  · intro found
    induction cs generalizing passed with
    | nil =>
      obtain ⟨b, success, same⟩ := Option.map_eq_some_iff.1 found
      cases same
      exact ⟨[], [], by simp, rfl, success, nowhere_nil []⟩
    | cons c cs ih =>
      rw [findFrom] at found
      cases first : p (c :: cs) with
      | some b =>
        simp only [first, Option.some.injEq, Prod.mk.injEq] at found
        obtain ⟨rfl, rfl⟩ := found
        exact ⟨[], c :: cs, by simp, rfl, first, nowhere_nil _⟩
      | none =>
        simp only [first] at found
        obtain ⟨between, rest, rfl, rfl, success, nowhere⟩ := ih found
        exact ⟨c :: between, rest, by simp, rfl, success, nowhere_cons.2 ⟨first, nowhere⟩⟩
  · rintro ⟨between, rest, rfl, rfl, success, nowhere⟩
    rw [findFrom_append_of_nowhere nowhere, findFrom_of_some success]
    simp

theorem find?_eq_some_iff {cs before : List Char} {a : α} :
    find? p cs = some (before, a) ↔
      ∃ rest, cs = before ++ rest ∧ p rest = some a ∧ Nowhere p rest before := by
  simp [find?, findFrom_eq_some_iff]

/-- What is here is found here. -/
theorem find?_of_some {cs : List Char} {a : α} (here : p cs = some a) :
    find? p cs = some ([], a) :=
  findFrom_of_some here

theorem find?_eq_none_iff {cs : List Char} : find? p cs = none ↔ Nowhere p [] cs ∧ p [] = none := by
  rw [← Option.not_isSome_iff_eq_none, find?, isSome_findFrom_iff]
  constructor
  · intro unfound
    have none (x y : List Char) (split : cs = x ++ y) : p y = none := by
      by_contra success
      exact unfound ⟨x, y, split, Option.ne_none_iff_isSome.1 success⟩
    exact ⟨fun x y split _ => none x _ (by rw [split, List.append_nil]), none cs [] (by simp)⟩
  · rintro ⟨nowhere, atEnd⟩ ⟨x, y, split, success⟩
    by_cases filled : y = []
    · rw [filled, atEnd] at success
      cases success
    · have := nowhere x y split filled
      rw [List.append_nil] at this
      rw [this] at success
      cases success

/-- A text in which nothing is found is passed over. -/
theorem find?_append_of_nowhere {cs rest : List Char} (nowhere : Nowhere p rest cs) :
    find? p (cs ++ rest) = (find? p rest).map fun r => (cs ++ r.1, r.2) := by
  cases found : find? p rest with
  | none =>
    obtain ⟨later, atEnd⟩ := find?_eq_none_iff.1 found
    refine find?_eq_none_iff.2 ⟨nowhere_append.2 ⟨?_, later⟩, atEnd⟩
    rwa [List.append_nil]
  | some result =>
    obtain ⟨behind, rfl, success, later⟩ := find?_eq_some_iff.1 found
    exact find?_eq_some_iff.2 ⟨behind, by simp, success, nowhere_append.2 ⟨nowhere, later⟩⟩

end Finding

/-- A text is broken at the first character of a kind. -/
theorem breakOn?_singleton_iff {x : Char} {cs before after : List Char} :
    breakOn? [x] cs = some (before, after) ↔ cs = before ++ x :: after ∧ x ∉ before := by
  have other (c : Char) (ds : List Char) (ne : c ≠ x) : dropPattern? [x] (c :: ds) = none := by
    simp [dropPattern?, ne]
  constructor
  · intro broken
    refine ⟨by simpa using eq_append_of_breakOn? broken, fun inside => ?_⟩
    obtain ⟨behind, -, -, nowhere⟩ := find?_eq_some_iff.1 broken
    obtain ⟨u, v, split⟩ := List.append_of_mem inside
    have early := nowhere u (x :: v) split (List.cons_ne_nil x v)
    simp [dropPattern?] at early
  · rintro ⟨rfl, free⟩
    exact find?_eq_some_iff.2 ⟨x :: after, rfl, by simp [dropPattern?],
      nowhere_of_notMem other free _⟩

/-! ## Words -/

/-- A word is taken off that has the same letters up to case folding. -/
theorem dropWord?_eq_some_iff {word cs rest : List Char} :
    dropWord? word cs = some rest ↔ ∃ w, cs = w ++ rest ∧ w.map fold = word := by
  induction word generalizing cs with
  | nil => simp [dropWord?, eq_comm]
  | cons x word ih =>
    cases cs with
    | nil => simp [dropWord?]
    | cons c cs =>
      by_cases same : fold c = x
      · simp only [dropWord?, same, beq_self_eq_true, if_true, ih]
        constructor
        · rintro ⟨w, rfl, letters⟩
          exact ⟨c :: w, rfl, by simp [same, letters]⟩
        · rintro ⟨w, split, letters⟩
          cases w with
          | nil => simp at letters
          | cons d w => exact ⟨w, (List.cons.inj split).2, (List.cons.inj letters).2⟩
      · simp only [dropWord?, beq_iff_eq, same, if_false, reduceCtorEq, false_iff]
        rintro ⟨w, split, letters⟩
        cases w with
        | nil => simp at letters
        | cons d w =>
          obtain ⟨rfl, -⟩ := List.cons.inj split
          exact same (List.cons.inj letters).1

/-! ## Replacing -/

/-- In front of any text, replacing turns `xs` into `ys`. -/
def Becomes (pattern new xs ys : List Char) : Prop :=
  ∀ rest, replaceFrom pattern new 0 (xs ++ rest) = ys ++ replaceFrom pattern new 0 rest

/-- A text without the first character of the pattern stays. -/
theorem becomes_self {x : Char} {pattern new xs : List Char} (free : x ∉ xs) :
    Becomes (x :: pattern) new xs xs := by
  intro rest
  induction xs with
  | nil => rfl
  | cons c xs ih =>
    rw [List.mem_cons, not_or] at free
    have other : ¬ (x :: pattern).isPrefixOf (c :: (xs ++ rest)) = true := by simp [free.1]
    rw [List.cons_append, replaceFrom, if_neg other, ih free.2, List.cons_append]

/-- Replacing in a text made of blocks, where each block is replaced on its own. -/
theorem replaceAll_flatMap {α : Type} {pattern new : List Char} {f g : α → List Char}
    (blocks : ∀ a, Becomes pattern new (f a) (g a)) (as : List α) :
    replaceAll pattern new (as.flatMap f) = as.flatMap g := by
  rw [replaceAll]
  induction as with
  | nil => rfl
  | cons a as ih => rw [List.flatMap_cons, blocks, ih, List.flatMap_cons]

end PageBundle.Text
