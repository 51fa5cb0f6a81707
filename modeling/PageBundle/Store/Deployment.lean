import PageBundle.File.Disk
import PageBundle.Store.Basic
import PageBundle.Text.Search

/-!
# Deployments

A deployment keeps its resources in the files under a root directory. `resolve` maps an identifier
to the names that lead from the root to its file: the context path is taken off, and what would
lead elsewhere is refused.
-/

namespace PageBundle.Store

/-- A root directory and the context path under which it is served. -/
structure Deployment where
  root : String
  contextPath : String
  deriving DecidableEq, Repr

namespace Deployment

/-- The deployment under a root; slashes at the end of the context path do not count. -/
def of (root contextPath : String) : Deployment :=
  ⟨root, String.ofList (Text.dropEnd (· == '/') contextPath.toList)⟩

/-- An identifier without the context path. -/
def withoutContext (d : Deployment) (id : String) : List Char :=
  (Text.dropPattern? d.contextPath.toList id.toList).getD id.toList

/-- Whether an identifier names another host. -/
def isRemote (id : List Char) : Bool :=
  Text.contains "://".toList id || "//".toList.isPrefixOf id

/-- The names that lead from the root to the file of an identifier. -/
def resolve (d : Deployment) (id : String) : Except Error (List String) :=
  let relative := d.withoutContext id
  let names := (File.namesOf (String.ofList relative)).filter (· != ".")
  if isRemote relative || names.contains ".." || names.isEmpty then .error (.invalidPath id)
  else .ok names

/-- A path with one more name. -/
def join (path name : String) : String :=
  if path == "" || path.toList.getLast? == some '/' then path ++ name else path ++ "/" ++ name

/-- The path to which names lead from the root. -/
def pathTo (d : Deployment) (names : List String) : String :=
  names.foldl join d.root

variable {m : Type → Type} [Monad m]

/-- Puts a file under the root in place, with the directories that it needs. -/
def writeFile (d : Deployment) (files : File.System m) (names : List String) (contents : Bytes) :
    m (Except File.Fault Unit) := do
  match ← files.makeDirectories (d.pathTo names.dropLast) with
  | .error fault => return .error fault
  | .ok () => files.write (d.pathTo names) contents

/-- The deployment as a store. -/
def store (d : Deployment) (files : File.System m) : Store m where
  read id :=
    match d.resolve id with
    | .error e => pure (.error e)
    | .ok names => return (← files.read (d.pathTo names)).mapError (.read id)
  write id contents :=
    match d.resolve id with
    | .error e => pure (.error e)
    | .ok names => return (← d.writeFile files names contents).mapError (.write id)
  contains id :=
    match d.resolve id with
    | .error e => pure (.error e)
    | .ok names => return .ok (← files.isFile (d.pathTo names))

end Deployment

end PageBundle.Store
