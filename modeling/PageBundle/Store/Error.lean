import PageBundle.File.Fault
import PageBundle.Gzip.Member
import PageBundle.StyleSheet.Minify

/-!
# Errors of stores and artifacts

Why a resource cannot be read, an artifact not be written or a step not be applied.
-/

namespace PageBundle.Store

/-- Why an operation on resources fails. -/
inductive Error where
  | read (path : String) (fault : File.Fault)
  | write (path : String) (fault : File.Fault)
  | notFound (path : String)
  /-- The path leads nowhere under the root. -/
  | invalidPath (path : String)
  /-- The resource is not a text in the charset. -/
  | encoding (path charset : String)
  | compression (e : Gzip.Error)
  | styleSheet (e : StyleSheet.Error)
  /-- An artifact is asked for that merges nothing. -/
  | emptyReferenceSet
  deriving DecidableEq, Repr

/-- The wording of an error. -/
def Error.message : Error → String
  | .read path fault => s!"cannot read {path}: {fault.message}"
  | .write path fault => s!"cannot write {path}: {fault.message}"
  | .notFound path => s!"not found: {path}"
  | .invalidPath path => s!"invalid resource path: {path}"
  | .encoding path charset => s!"{path} is not representable as {charset}"
  | .compression e => s!"compression error: {e.message}"
  | .styleSheet e => s!"minify error: {e.message}"
  | .emptyReferenceSet => "cannot build an artifact from an empty reference set"

end PageBundle.Store
