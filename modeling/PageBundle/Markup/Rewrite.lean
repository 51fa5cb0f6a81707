import PageBundle.Markup.Piece

/-!
# Rewriting pages

When the eligible elements of a page are merged, the first of them gives way to one element that
refers to the artifact and the others are left out. All else stays as it is.
-/

namespace PageBundle.Markup

/-- The element that refers to an artifact. -/
def mergedElement (kind : Kind) (source : String) : String :=
  let written (name value : String) := " " ++ name ++ "=\"" ++ value ++ "\""
  "<" ++ kind.tag ++ String.join (kind.mergedAttributes.map fun a => written a.1 a.2) ++
    written kind.sourceAttribute (String.ofList (escape source.toList)) ++ ">" ++
    match kind with
    | .script => "</script>"
    | .style => ""

/-- The text of the pieces with `merged` in the place of the first eligible element and nothing in
the place of the others. -/
def rewriteFrom (merged : List Char) : List Piece → List Char
  | [] => []
  | .text cs :: ps => cs ++ rewriteFrom merged ps
  | .element e :: ps =>
    if e.eligible then merged ++ rewriteFrom [] ps else e.source ++ rewriteFrom merged ps

/-- The page with its eligible elements merged into one that refers to `source`. -/
def rewrite (kind : Kind) (source : String) (ps : List Piece) : String :=
  String.ofList (rewriteFrom (mergedElement kind source).toList ps)

/-- The identifiers of the eligible elements, in order. -/
def eligibleIds (ps : List Piece) : List String :=
  ps.filterMap fun
    | .text _ => none
    | .element e => if e.eligible then some e.reference.id else none

end PageBundle.Markup
