import PageBundle.Text.Blank
import PageBundle.Text.Letter

/-!
# Kinds of resources

A page refers to scripts by `script` elements and to style sheets by `link` elements. The kind of a
resource decides how the element that refers to it looks, which media types belong to it, and how
the artifact that many such resources are merged into is named.
-/

namespace PageBundle

/-- The kind of a resource. -/
inductive Kind where
  | script
  | style
  deriving DecidableEq, Repr

namespace Kind

/-- Both kinds, in the order in which a page is optimized. -/
def all : List Kind := [.script, .style]

/-- The name of a kind. -/
def name : Kind → String
  | .script => "script"
  | .style => "style"

/-- The element that refers to a resource of the kind. -/
def tag : Kind → String
  | .script => "script"
  | .style => "link"

/-- The attribute of that element that holds the resource's identifier. -/
def sourceAttribute : Kind → String
  | .script => "src"
  | .style => "href"

/-- The other attributes of the element for a merged artifact, in order. -/
def mergedAttributes : Kind → List (String × String)
  | .script => [("type", "text/javascript")]
  | .style => [("type", "text/css"), ("rel", "stylesheet")]

/-- The file extension of an artifact. -/
def fileExtension : Kind → String
  | .script => "js"
  | .style => "css"

/-- The directory of artifacts when none is configured. -/
def defaultDirectory : Kind → String
  | .script => "/js"
  | .style => "/style"

/-- The kind of a name, for which its file extension may stand. -/
def ofName? (s : String) : Option Kind :=
  match Text.lower (Text.trim s) with
  | "script" | "js" => some .script
  | "style" | "css" => some .style
  | _ => none

/-- Whether an element with these `type` and `rel` attributes refers to a resource of the kind. A
script without a type is one, and so is a link without a type whose relation is `stylesheet`. -/
def accepts (kind : Kind) (mediaType rel : Option String) : Bool :=
  let mediaType := Text.trim (mediaType.getD "")
  match kind with
  | .script =>
    mediaType == "" || Text.sameLetters mediaType "text/javascript" ||
      Text.sameLetters mediaType "application/javascript"
  | .style =>
    if mediaType == "" then rel.any fun r => Text.sameLetters (Text.trim r) "stylesheet"
    else Text.sameLetters mediaType "text/css"

end Kind

end PageBundle
