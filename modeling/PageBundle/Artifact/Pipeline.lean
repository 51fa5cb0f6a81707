import PageBundle.Artifact.Policy
import PageBundle.Artifact.Step

/-!
# Pipelines

A pipeline is a list of steps in which those that write bytes come last. It applies them in order;
a step that fails leaves the artifact as it is, and the next one is applied all the same.
-/

namespace PageBundle

open Store (Error)

/-- A step that was applied, and what came of it. -/
structure StepOutcome where
  step : Step
  result : Except Error (Option Step.Receipt)

/-- What came of the steps of a pipeline, in the order in which they were applied. -/
abbrev Run := List StepOutcome

namespace Run

/-- The names of the steps that succeeded. -/
def applied (r : Run) : List String :=
  r.filterMap fun o => if o.result.isOk then some o.step.name else none

/-- The names of the steps that failed. -/
def failed (r : Run) : List String :=
  r.filterMap fun o => if o.result.isOk then none else some o.step.name

/-- Whether every step succeeded. -/
def isClean (r : Run) : Bool :=
  r.failed.isEmpty

/-- The compressions that count in a ledger. -/
def receipts (r : Run) (ledger : Ledger) : List Step.Receipt :=
  r.filterMap fun o =>
    match o.result with
    | .ok (some receipt) => if receipt.ledger = ledger then some receipt else none
    | _ => none

/-- Statistics to which the compressions that count in a ledger are added. -/
def addTo (r : Run) (ledger : Ledger) (statistics : Gzip.Statistics) : Gzip.Statistics :=
  (r.receipts ledger).foldl
    (fun s receipt => s.record (UInt64.ofNat receipt.input) (UInt64.ofNat receipt.output))
    statistics

end Run

/-- Steps in the order in which they are applied, and the compressions so far. -/
structure Pipeline where
  steps : List Step := []
  statistics : Gzip.Statistics := {}

namespace Pipeline

/-- The pipeline with one more step: the last one if it writes bytes, otherwise the last one before
those that do. -/
def add (p : Pipeline) (step : Step) : Pipeline :=
  if step.encodesBytes then { p with steps := p.steps ++ [step] }
  else
    { p with
      steps := p.steps.takeWhile (!·.encodesBytes) ++
        step :: p.steps.dropWhile (!·.encodesBytes) }

/-- The pipeline of some steps, added in order. -/
def ofSteps (steps : List Step) : Pipeline :=
  steps.foldl add {}

/-- The pipeline for artifacts of a kind. A step is in it if the policy asks for it and it is
enabled at all. -/
def ofPolicy (charset : Charset) (kind : Kind) (policy : Policy) (minify compress : Bool) :
    Pipeline :=
  ofSteps <|
    (if minify && policy.minify then [.minify kind charset] else []) ++
    (if compress && policy.compress then [.compress policy.level .pipeline] else [])

/-- The names of the steps. -/
def names (p : Pipeline) : List String :=
  p.steps.map Step.name

variable {m : Type → Type} [Monad m]

/-- Applies steps in order. -/
def applyAll (store : Store m) (path : String) (steps : List Step) (tools : Tools) : m Run :=
  match steps with
  | [] => pure []
  | step :: steps => do
    let result ← step.apply store path tools
    return ⟨step, result⟩ :: (← applyAll store path steps tools)

/-- Runs a pipeline on the artifact at `path`. -/
def run (p : Pipeline) (store : Store m) (path : String) (tools : Tools := .builtIn) :
    m (Run × Pipeline) := do
  let r ← applyAll store path p.steps tools
  return (r, { p with statistics := r.addTo .pipeline p.statistics })

end Pipeline

end PageBundle
