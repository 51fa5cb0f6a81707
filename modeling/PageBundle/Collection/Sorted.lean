/-!
# Sorted lists

A sorted list is searched by halving it: what is looked for is compared with the element in the
middle, and the search goes on in the half where it can be, until one element is left. `contains_iff`
says that this finds exactly the elements of the list.
-/

namespace PageBundle.Sorted

variable {α : Type}

/-- The element that is left when a list is halved again and again. `isBehind` tells whether an
element has its place behind the one that is looked for. -/
def narrow (isBehind : α → Bool) (xs : List α) : Option α :=
  if _small : xs.length ≤ 1 then xs.head?
  else
    have inside : xs.length / 2 < xs.length := by omega
    if isBehind xs[xs.length / 2] then narrow isBehind (xs.take (xs.length - xs.length / 2))
    else narrow isBehind (xs.drop (xs.length / 2))
termination_by xs.length
decreasing_by
  all_goals
    simp only [List.length_take, List.length_drop]
    omega

/-- Whether an element is in a list that `le` sorts. -/
def contains [BEq α] (le : α → α → Bool) (xs : List α) (a : α) : Bool :=
  narrow (fun x => !le x a) xs == some a

theorem mem_of_narrow {isBehind : α → Bool} {xs : List α} {a : α}
    (left : narrow isBehind xs = some a) : a ∈ xs := by
  fun_induction narrow isBehind xs with
  | case1 xs small => exact List.mem_of_head? left
  | case2 xs large inside behind ih => exact List.mem_of_mem_take (ih left)
  | case3 xs large inside before ih => exact List.mem_of_mem_drop (ih left)

section Order

variable {le : α → α → Bool} (refl : ∀ a, le a a = true)
  (antisymm : ∀ a b, le a b = true → le b a = true → a = b)
include refl antisymm

/-- An element of a sorted list stays in the half where the search goes on. -/
theorem narrow_of_mem {xs : List α} (sorted : xs.Pairwise fun x y => le x y = true) {a : α}
    (member : a ∈ xs) : narrow (fun x => !le x a) xs = some a := by
  fun_induction narrow (fun x => !le x a) xs with
  | case1 xs small =>
    match xs, small, member with
    | [x], _, member => simp_all
  | case2 xs large inside behind ih =>
    -- All that stands from the middle on comes after `a`.
    refine ih (sorted.sublist (List.take_sublist _ _)) ?_
    obtain ⟨i, bound, rfl⟩ := List.getElem_of_mem member
    have before : i < xs.length / 2 := by
      refine Nat.lt_of_not_le fun after => ?_
      rcases Nat.eq_or_lt_of_le after with same | later
      · simp [same, refl] at behind
      · simp [List.pairwise_iff_getElem.1 sorted _ _ inside bound later] at behind
    exact List.mem_take_iff_getElem.2 ⟨i, by omega, rfl⟩
  | case3 xs large inside before ih =>
    refine ih (sorted.sublist (List.drop_sublist _ _)) ?_
    obtain ⟨i, bound, rfl⟩ := List.getElem_of_mem member
    have within : le xs[xs.length / 2] xs[i] = true := by simpa using before
    by_cases early : i < xs.length / 2
    · rw [antisymm _ _ (List.pairwise_iff_getElem.1 sorted _ _ bound inside early) within]
      exact List.mem_drop_iff_getElem.2 ⟨0, by omega, by simp⟩
    · exact List.mem_drop_iff_getElem.2 ⟨i - xs.length / 2, by omega, by congr 1; omega⟩

/-- **The search finds exactly the elements of a sorted list.** -/
theorem contains_iff [BEq α] [LawfulBEq α] {xs : List α}
    (sorted : xs.Pairwise fun x y => le x y = true) {a : α} :
    contains le xs a = true ↔ a ∈ xs := by
  rw [contains, beq_iff_eq]
  exact ⟨mem_of_narrow, narrow_of_mem refl antisymm sorted⟩

end Order

end PageBundle.Sorted
