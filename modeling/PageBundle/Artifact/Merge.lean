import PageBundle.Resource.ReferenceSet
import PageBundle.Store.Basic
import PageBundle.Text.Lines

/-!
# Merging

The members of a reference set are merged by writing the lines of each, in the order in which they
were found, into one artifact. A member that cannot be read is left out; only the encoding and the
writing of the artifact can fail.
-/

namespace PageBundle

open Store (Error)

/-- What a member adds to an artifact: its lines, each ended by a line feed. -/
def contribution (text : String) : List Char :=
  Text.endLines text.toList

/-- What reading the members gives. -/
structure Gathering where
  content : List Char := []
  /-- The members that were read. -/
  merged : List String := []
  /-- The members that could not be read, with the reasons. -/
  omitted : List (String × Error) := []

/-- Puts what reading one member gave before what reading the following ones gave. -/
def Gathering.add (g : Gathering) (id : String) : Except Error String → Gathering
  | .ok text => { g with content := contribution text ++ g.content, merged := id :: g.merged }
  | .error e => { g with omitted := (id, e) :: g.omitted }

/-- What came of a merge. -/
structure Merge where
  /-- The path of the artifact. -/
  path : String
  /-- The members that were read, in order. -/
  merged : List String
  /-- The members that were left out, in order, with the reasons. -/
  omitted : List (String × Error)
  /-- The length of the artifact in bytes, if it was written. -/
  written : Except Error Nat

/-- The members that were left out. -/
def Merge.skipped (r : Merge) : List String :=
  r.omitted.map (·.1)

variable {m : Type → Type} [Monad m]

/-- Reads members in order. -/
def gather (store : Store m) (charset : Charset) : List String → m Gathering
  | [] => pure {}
  | id :: ids => do
    let text ← store.readText charset id
    return (← gather store charset ids).add id text

/-- Merges the members of a set into the artifact at `path`. -/
def merge (store : Store m) (charset : Charset) (set : ReferenceSet) (path : String) : m Merge := do
  let g ← gather store charset set.members
  match charset.encode path (String.ofList g.content) with
  | .error e => return ⟨path, g.merged, g.omitted, .error e⟩
  | .ok bs =>
    let written ← store.write path bs
    return ⟨path, g.merged, g.omitted, written.map fun _ => bs.length⟩

end PageBundle
