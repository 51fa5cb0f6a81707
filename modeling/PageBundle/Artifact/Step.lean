import PageBundle.Artifact.Tools
import PageBundle.Gzip.Statistics
import PageBundle.Resource.Kind
import PageBundle.Script.Minify
import PageBundle.Store.Basic

/-!
# Steps

A step changes an artifact in place. Most steps read a text and write a text; those that write
bytes which are no longer a text have to come last.
-/

namespace PageBundle

open Store (Error)

/-- The minified form of a text of a kind. -/
def Kind.minify (kind : Kind) (text : String) (tools : Tools := .builtIn) :
    Except StyleSheet.Error String :=
  match kind with
  | .script => .ok (Script.minifyText text)
  | .style => tools.minifyStyleSheet text

/-- Whose statistics a compression counts in: those of the pipeline, or some that the caller keeps
and tells apart by an index. -/
inductive Ledger where
  | pipeline
  | caller (index : Nat := 0)
  deriving DecidableEq, Repr

/-- Something that is done to an artifact. -/
inductive Step where
  | minify (kind : Kind) (charset : Charset)
  | compress (level : Gzip.Level) (ledger : Ledger)
  /-- Finds no artifact to work on, wherever it looks. -/
  | refuse (name : String) (encodesBytes : Bool)

namespace Step

/-- The name of a step. -/
def name : Step → String
  | .minify _ _ => "minify"
  | .compress _ _ => "compress"
  | .refuse name _ => name

/-- Whether what a step writes is no longer a text. -/
def encodesBytes : Step → Bool
  | .minify _ _ => false
  | .compress _ _ => true
  | .refuse _ encodesBytes => encodesBytes

/-- What a compression took and gave, in bytes, and where that counts. -/
structure Receipt where
  ledger : Ledger
  input : Nat
  output : Nat
  deriving DecidableEq, Repr

variable {m : Type → Type} [Monad m]

/-- Applies a step to the artifact at `path`. -/
def apply (store : Store m) (path : String) (step : Step) (tools : Tools) :
    m (Except Error (Option Receipt)) :=
  match step with
  | .minify kind charset => do
    match (← store.readText charset path).bind fun t =>
        (kind.minify t tools).mapError .styleSheet with
    | .error e => return .error e
    | .ok text => return (← store.writeText charset path text).map fun _ => none
  | .compress level ledger => do
    match ← store.read path with
    | .error e => return .error e
    | .ok data =>
      match tools.compress level data with
      | .error e => return .error (.compression e)
      | .ok encoded =>
        let receipt : Receipt := ⟨ledger, data.length, encoded.length⟩
        return (← store.write path encoded).map fun _ => some receipt
  | .refuse _ _ => return .error (.notFound path)

end Step

end PageBundle
