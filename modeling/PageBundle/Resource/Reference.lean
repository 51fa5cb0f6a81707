import PageBundle.Resource.Kind
import PageBundle.Value.Basic

/-!
# References

A reference is what an element of a page says about a resource. It may be merged as a kind unless
the element opted out, its identifier is blank, or the kind does not accept its media type.
-/

namespace PageBundle

/-- A reference to a resource, as an element states it. -/
structure Reference where
  /-- The identifier, usually a path from the web root. -/
  id : String
  mediaType : Option String := none
  rel : Option String := none
  optOut : Bool := false
  deriving DecidableEq, Repr

namespace Reference

/-- Whether the reference may be merged as one of `kind`; exclusions are not looked at. -/
def isMergeableAs (r : Reference) (kind : Kind) : Bool :=
  !r.optOut && !Text.isBlankText r.id && kind.accepts r.mediaType r.rel

/-- The names of the fields of a reference in a value. -/
def fieldNames : List String := ["id", "media_type", "rel", "opt_out"]

/-- The reference that a value tells: a table, or a list of all four fields. -/
def ofValue? (v : Value) : Option Reference := do
  if let .list items := v then guard (items.length == fieldNames.length)
  match ← v.fields? .exact fieldNames with
  | [some id, mediaType, rel, some optOut] =>
    let id ← id.text? .exact
    let mediaType ← Value.fieldOr none (·.optionalText? .exact) mediaType
    let rel ← Value.fieldOr none (·.optionalText? .exact) rel
    let optOut ← optOut.bool? .exact
    some { id, mediaType, rel, optOut }
  | _ => none

/-- The reference as a value. -/
def toValue (r : Reference) : Value :=
  .table [("id", .text r.id), ("media_type", Value.ofOption r.mediaType),
    ("rel", Value.ofOption r.rel), ("opt_out", .bool r.optOut)]

end Reference

end PageBundle
