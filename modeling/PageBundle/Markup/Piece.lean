import PageBundle.Markup.Attribute
import PageBundle.Markup.Comment
import PageBundle.Markup.Tag
import PageBundle.Resource.Reference

/-!
# Pages as pieces

A page is cut into the elements that refer to resources of a kind and the text between them. An
element in a comment is text. `pieces` does the cutting, `flatten_pieces` says that nothing is lost
by it, and `tags` tells where in the page each element stands.
-/

namespace PageBundle.Markup

open Text (byteLength)

/-- Why a page cannot be cut. -/
inductive Error where
  /-- The script element that begins at this offset is never closed. -/
  | unterminated (offset : Nat)
  deriving DecidableEq, Repr

/-- The wording of an error. -/
def Error.message : Error → String
  | .unterminated offset => s!"unterminated <script> element at byte {offset}"

/-- An element that refers to a resource. -/
structure Element where
  /-- The text of the element, from its start tag to its end tag. -/
  source : List Char
  reference : Reference
  /-- Whether the element has content of its own. -/
  inline : Bool
  /-- Whether the element will be merged with others. -/
  eligible : Bool
  deriving DecidableEq, Repr

/-- A piece of a page. -/
inductive Piece where
  | text (cs : List Char)
  | element (e : Element)
  deriving DecidableEq, Repr

/-- The text of a piece. -/
def Piece.source : Piece → List Char
  | .text cs => cs
  | .element e => e.source

/-- Whether an identifier contains one of the keywords. -/
def isExcluded (keywords : List String) (id : String) : Bool :=
  keywords.any fun keyword => Text.contains keyword.toList id.toList

/-- The reference that the attribute text of a start tag states. -/
def referenceOf (kind : Kind) (attributeText : List Char) : Reference :=
  let attributes := rawAttributes attributeText
  { id := (attribute? attributes kind.sourceAttribute).getD ""
    mediaType := attribute? attributes "type"
    rel := attribute? attributes "rel"
    optOut := (attribute? attributes "noopt").any fun v => Text.sameLetters (Text.trim v) "true" }

/-- The element with a source, an attribute text and content of its own or not. -/
def elementOf (keywords : List String) (kind : Kind) (source attributeText : List Char)
    (inline : Bool) : Element :=
  let reference := referenceOf kind attributeText
  { source, reference, inline
    eligible := !inline && reference.isMergeableAs kind && !isExcluded keywords reference.id }

/-- Whether the attribute text ends with a slash, which closes the element. -/
def closesItself (attributeText : List Char) : Bool :=
  (Text.dropEnd Text.isBlank attributeText).getLast? == some '/'

/-- Where an element ends: what its source has after the start tag, whether that is more than white
space, and the text after the element. -/
def content? (kind : Kind) (tag : StartTag) : Option (List Char × Bool × List Char) :=
  if kind = .style || closesItself tag.attributes then some ([], false, tag.rest)
  else (Text.find? (endTag? kind.tag.toList) tag.rest).map fun (body, close, rest) =>
    (body ++ close, !body.all Text.isBlank, rest)

theorem eq_append_of_content? {kind : Kind} {tag : StartTag} {content rest : List Char}
    {inline : Bool} (h : content? kind tag = some (content, inline, rest)) :
    tag.rest = content ++ rest := by
  unfold content? at h
  split at h
  · cases h
    rfl
  · obtain ⟨⟨body, close, after⟩, hf, he⟩ := Option.map_eq_some_iff.1 h
    cases he
    obtain ⟨r, hr, ht⟩ := Text.exists_of_find? hf
    rw [hr, (eq_append_of_endTag? ht).1]
    simp

theorem eq_append_of_find_startTag? {name cs before : List Char} {tag : StartTag}
    (h : Text.find? (startTag? name) cs = some (before, tag)) :
    cs = before ++ (tag.text ++ tag.rest) ∧ tag.rest.length < cs.length := by
  obtain ⟨r, hr, ht⟩ := Text.exists_of_find? h
  obtain ⟨e, hne⟩ := eq_append_of_startTag? ht
  have := List.length_pos_iff.2 hne
  refine ⟨by rw [hr, e], ?_⟩
  rw [hr, e]
  simp only [List.length_append]
  omega

/-- Cuts the text `cs`, which begins at an offset, when the comments of the page are known. -/
def piecesFrom (keywords : List String) (kind : Kind) (comments : List Span) (offset : Nat)
    (cs : List Char) : Except Error (List Piece) :=
  match _h : Text.find? (startTag? kind.tag.toList) cs with
  | none => .ok [.text cs]
  | some (before, tag) =>
    let start := offset + byteLength before
    let next := start + byteLength tag.text
    if comments.any (·.contains start) then
      (piecesFrom keywords kind comments next tag.rest).map (.text (before ++ tag.text) :: ·)
    else
      match _hc : content? kind tag with
      | none => .error (.unterminated start)
      | some (content, inline, rest) =>
        (piecesFrom keywords kind comments (next + byteLength content) rest).map fun pieces =>
          .text before :: .element (elementOf keywords kind (tag.text ++ content) tag.attributes
            inline) :: pieces
termination_by cs.length
decreasing_by
  · exact (eq_append_of_find_startTag? _h).2
  · have h1 := (eq_append_of_find_startTag? _h).2
    have h2 := congrArg List.length (eq_append_of_content? _hc)
    simp only [List.length_append] at h2
    omega

/-- Cuts a page into its elements of a kind and the text between them. -/
def pieces (keywords : List String) (kind : Kind) (page : List Char) :
    Except Error (List Piece) :=
  piecesFrom keywords kind (commentSpans 0 page) 0 page

theorem flatten_piecesFrom {keywords : List String} {kind : Kind} {comments : List Span}
    {offset : Nat} {cs : List Char} {ps : List Piece}
    (h : piecesFrom keywords kind comments offset cs = .ok ps) : ps.flatMap Piece.source = cs := by
  fun_induction piecesFrom keywords kind comments offset cs generalizing ps with
  | case1 offset cs => cases h; simp [Piece.source]
  | case2 offset cs before tag hf start next _ =>
    rename_i ih
    cases hr : piecesFrom keywords kind comments next tag.rest with
    | error e => simp [hr, Except.map] at h
    | ok qs =>
      simp only [hr, Except.map, Except.ok.injEq] at h
      subst h
      simp [Piece.source, ih hr, (eq_append_of_find_startTag? hf).1]
  | case3 => cases h
  | case4 offset cs before tag hf start next _ content inline rest hc =>
    rename_i ih
    cases hr : piecesFrom keywords kind comments (next + byteLength content) rest with
    | error e => simp [hr, Except.map] at h
    | ok qs =>
      simp only [hr, Except.map, Except.ok.injEq] at h
      subst h
      simp [Piece.source, elementOf, ih hr, (eq_append_of_find_startTag? hf).1,
        eq_append_of_content? hc]

/-- The pieces of a page are the page. -/
theorem flatten_pieces {keywords : List String} {kind : Kind} {page : List Char} {ps : List Piece}
    (h : pieces keywords kind page = .ok ps) : ps.flatMap Piece.source = page :=
  flatten_piecesFrom h

/-- An element and where it stands in the page. -/
structure Tag where
  span : Span
  element : Element
  deriving DecidableEq, Repr

/-- The elements among pieces that begin at an offset. -/
def tagsFrom (offset : Nat) : List Piece → List Tag
  | [] => []
  | .text cs :: ps => tagsFrom (offset + byteLength cs) ps
  | .element e :: ps =>
    let stop := offset + byteLength e.source
    ⟨⟨offset, stop⟩, e⟩ :: tagsFrom stop ps

/-- The elements of a page. -/
def tags (ps : List Piece) : List Tag :=
  tagsFrom 0 ps

/-- The elements of a kind in a page, with the places where they stand. -/
def scan (keywords : List String) (kind : Kind) (page : String) : Except Error (List Tag) :=
  (pieces keywords kind page.toList).map tags

end PageBundle.Markup
