import PageBundle.Text.Offset
import PageBundle.Text.Search

/-!
# Comments of a page

A comment begins with `<!--` and ends with the first `-->` after it. Places in a page are counted in
bytes, so that a stretch of a page is told by two byte offsets.
-/

namespace PageBundle.Markup

open Text (byteLength)

/-- A stretch of a page, from one offset up to but not including another. -/
structure Span where
  start : Nat
  stop : Nat
  deriving DecidableEq, Repr

/-- Whether an offset lies in the stretch. -/
def Span.contains (s : Span) (offset : Nat) : Bool :=
  s.start ≤ offset && offset < s.stop

/-- What opens a comment. -/
def commentStart : List Char := ['<', '!', '-', '-']

/-- What closes a comment. -/
def commentEnd : List Char := ['-', '-', '>']

/-- The first comment: the text before it, its text, and the text after it. -/
def firstComment? (cs : List Char) : Option (List Char × List Char × List Char) :=
  match Text.breakOn? commentStart cs with
  | none => none
  | some (before, inside) =>
    match Text.breakOn? commentEnd inside with
    | none => none
    | some (body, after) => some (before, commentStart ++ body ++ commentEnd, after)

theorem eq_append_of_firstComment? {cs before comment after : List Char}
    (h : firstComment? cs = some (before, comment, after)) :
    cs = before ++ comment ++ after ∧ comment ≠ [] := by
  unfold firstComment? at h
  split at h
  · cases h
  · rename_i before' inside h1
    split at h
    · cases h
    · rename_i body after' h2
      cases h
      have e1 := Text.eq_append_of_breakOn? h1
      have e2 := Text.eq_append_of_breakOn? h2
      simp [e1, e2, commentStart]

/-- The stretches of the comments in a text that begins at an offset. -/
def commentSpans (offset : Nat) (cs : List Char) : List Span :=
  match _h : firstComment? cs with
  | none => []
  | some (before, comment, after) =>
    let start := offset + byteLength before
    let stop := start + byteLength comment
    ⟨start, stop⟩ :: commentSpans stop after
termination_by cs.length
decreasing_by
  obtain ⟨e, hne⟩ := eq_append_of_firstComment? _h
  have := List.length_pos_iff.2 hne
  simp only [e, List.length_append]
  omega

end PageBundle.Markup
