import PageBundle.Artifact.Merge
import PageBundle.Artifact.Path
import PageBundle.Artifact.Pipeline
import PageBundle.Cache.BuildOnce

/-!
# Artifacts that are built once

The artifacts of one kind, each merged and put through the pipeline on the first request for its
reference set. Later requests for the same members, in any order, are answered with its path.
-/

namespace PageBundle

open Store (Error)

/-- What came of building an artifact. -/
structure Build where
  merge : Merge
  /-- The steps after the merge; none if it failed. -/
  run : Run

/-- The path of the artifact, if it was built. -/
def Build.path (b : Build) : Except Error String :=
  b.merge.written.map fun _ => b.merge.path

/-- How a request for an artifact was answered. -/
inductive Request where
  /-- The set has no members. -/
  | empty
  | cached (path : String)
  | ran (build : Build)

/-- The path of the artifact, or why there is none. -/
def Request.path : Request → Except Error String
  | .empty => .error .emptyReferenceSet
  | .cached path => .ok path
  | .ran build => build.path

/-- How often artifacts were requested and built. -/
structure RequestCounts where
  hits : UInt64 := 0
  misses : UInt64 := 0
  builds : UInt64 := 0
  failedBuilds : UInt64 := 0
  deriving DecidableEq, Repr

namespace RequestCounts

/-- The counts after one more request; one for nothing does not count. -/
def record (c : RequestCounts) : Request → RequestCounts
  | .empty => c
  | .cached _ => { c with hits := c.hits + 1 }
  | .ran build =>
    if build.path.isOk then { c with misses := c.misses + 1, builds := c.builds + 1 }
    else { c with misses := c.misses + 1, failedBuilds := c.failedBuilds + 1 }

/-- The share of the requests that were answered without a build; nothing before the first. -/
def hitRatio (c : RequestCounts) : Float :=
  let total := c.hits + c.misses
  if total == 0 then 0.0 else c.hits.toFloat / total.toFloat

end RequestCounts

/-- The artifacts of a kind. -/
structure ArtifactCache where
  kind : Kind
  mode : BuildMode
  directory : String
  charset : Charset
  pipeline : Pipeline
  /-- What the steps of the pipeline call on. -/
  tools : Tools := .builtIn
  /-- The paths of the artifacts that were built. -/
  paths : BuildOnce ReferenceSet String := {}
  counts : RequestCounts := {}

namespace ArtifactCache

/-- The path that the artifact of a set has when it is built. -/
def pathOf (c : ArtifactCache) (set : ReferenceSet) : String :=
  artifactPath c.directory c.mode c.kind set

/-- The path of the artifact of a set, if it was built. -/
def get? (c : ArtifactCache) (set : ReferenceSet) : Option String :=
  c.paths.get? set

/-- How many artifacts were built. -/
def size (c : ArtifactCache) : Nat :=
  c.paths.size

variable {m : Type → Type} [Monad m]

/-- Builds the artifact of a set. -/
def build (c : ArtifactCache) (store : Store m) (set : ReferenceSet) : m Build := do
  let merged ← merge store c.charset set (c.pathOf set)
  match merged.written with
  | .error _ => return ⟨merged, []⟩
  | .ok _ => return ⟨merged, ← Pipeline.applyAll store merged.path c.pipeline.steps c.tools⟩

/-- The cache after a request was answered. -/
def record (c : ArtifactCache) (paths : BuildOnce ReferenceSet String) (r : Request) :
    ArtifactCache :=
  let statistics := match r with
    | .ran build => build.run.addTo .pipeline c.pipeline.statistics
    | _ => c.pipeline.statistics
  { c with paths, counts := c.counts.record r, pipeline := { c.pipeline with statistics } }

/-- Answers a request for the artifact of a set, by a build if there is none. -/
def request (c : ArtifactCache) (store : Store m) (set : ReferenceSet) :
    m (Request × ArtifactCache) := do
  if set.isEmpty then return (.empty, c)
  let (lookup, paths) ← c.paths.request set (·.path.toOption) (c.build store set)
  let answer := match lookup with
    | .cached path => Request.cached path
    | .ran build => .ran build
  return (answer, c.record paths answer)

end ArtifactCache

end PageBundle
