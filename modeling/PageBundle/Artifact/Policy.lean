import PageBundle.Gzip.Level
import PageBundle.Resource.Kind
import PageBundle.Text.Blank

/-!
# Artifact policies

A policy says, for the artifacts of one kind, where they are put and what is done to them once they
are merged.
-/

namespace PageBundle

/-- What is done with the artifacts of a kind. -/
structure Policy where
  /-- The directory of the artifacts; the kind's default when there is none. -/
  directory : Option String := none
  minify : Bool := true
  compress : Bool := false
  /-- How hard an artifact is compressed if it is. -/
  level : Gzip.Level := .balanced
  deriving DecidableEq, Repr

namespace Policy

/-- The directory of artifacts of `kind`; a blank one counts as none. -/
def directoryFor (p : Policy) (kind : Kind) : String :=
  match p.directory with
  | some directory =>
    if Text.isBlankText directory then kind.defaultDirectory else directory
  | none => kind.defaultDirectory

/-- The policy that a value tells; what it leaves out is as in the default policy. -/
def ofValue? (manner : Value.Manner) (v : Value) : Option Policy := do
  match ← v.fields? manner ["directory", "minify", "compress", "compression_level"] with
  | [directory, minify, compress, level] =>
    let directory ← Value.fieldOr none (·.optionalText? manner) directory
    let minify ← Value.fieldOr true (·.bool? manner) minify
    let compress ← Value.fieldOr false (·.bool? manner) compress
    let level ← Value.fieldOr .balanced (Gzip.Level.ofValue? manner) level
    some { directory, minify, compress, level }
  | _ => none

/-- The policy as a value. -/
def toValue (p : Policy) : Value :=
  .table [("directory", Value.ofOption p.directory), ("minify", .bool p.minify),
    ("compress", .bool p.compress), ("compression_level", .text p.level.name)]

end Policy

end PageBundle
