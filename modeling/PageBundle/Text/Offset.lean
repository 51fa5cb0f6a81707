/-!
# Offsets in bytes

Places in a text are counted in the bytes of its UTF-8 form. `cut?` takes a text apart at such a
place, which need not be one where a character ends.
-/

namespace PageBundle.Text

/-- How many bytes a text takes. -/
def byteLength (cs : List Char) : Nat :=
  cs.foldr (fun c n => c.utf8Size + n) 0

/-- The text before an offset and the text after it; nothing if a character lies across it. -/
def cut? : Nat → List Char → Option (List Char × List Char)
  | 0, cs => some ([], cs)
  | _ + 1, [] => none
  | n + 1, c :: cs =>
    if c.utf8Size ≤ n + 1 then
      (cut? (n + 1 - c.utf8Size) cs).map fun (before, after) => (c :: before, after)
    else none

@[simp] theorem byteLength_append (xs ys : List Char) :
    byteLength (xs ++ ys) = byteLength xs + byteLength ys := by
  induction xs with
  | nil => simp [byteLength]
  | cons x xs ih =>
    simp only [byteLength, List.cons_append, List.foldr_cons] at ih ⊢
    omega

end PageBundle.Text
