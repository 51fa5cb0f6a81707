import PageBundle.Log.Event
import PageBundle.Page.Optimizer
import PageBundle.Text.Quoted

/-!
# Reports

What is logged of merges, pipelines, requests for artifacts and served pages. The events are told by
what came of an operation alone.
-/

namespace PageBundle.Log

/-- A field with a number. -/
def count (name : String) (n : Nat) : String × Option Value :=
  (name, some (.int n))

/-- A field with a text. -/
def field (name text : String) : String × Option Value :=
  (name, some (.text text))

/-- The field with the time that something took. -/
def duration : String × Option Value :=
  ("elapsed_ms", none)

/-- The events of a merge: one for each member that was left out, and one for the artifact. -/
def ofMerge (r : Merge) : List Event :=
  let omitted := r.omitted.map fun (id, e) =>
    ⟨.warn, "wpo_storage::merger", "omitting unreadable resource from merge",
      [field "member" id, field "error" e.message]⟩
  let written : List Event := match r.written with
    | .error _ => []
    | .ok _ =>
      [⟨.debug, "wpo_storage::merger", "merged resources",
        [field "path" r.path, count "members" r.merged.length, count "skipped" r.omitted.length,
          duration]⟩]
  omitted ++ written

/-- The events of a pipeline on the artifact at `path`: one for each step. -/
def ofRun (path : String) (r : Run) : List Event :=
  r.map fun o =>
    match o.result with
    | .ok _ =>
      ⟨.debug, "wpo_storage::pipeline", "post-processed artifact",
        [field "step" o.step.name, field "path" path, duration]⟩
    | .error e =>
      ⟨.error, "wpo_storage::pipeline", "post-processing step failed",
        [field "step" o.step.name, field "path" path, field "error" e.message]⟩

/-- The event that ends the building of an artifact of a kind. -/
def ofOutcome (kind : Kind) (b : Build) : Event :=
  match b.path with
  | .ok path =>
    ⟨.info, "wpo_storage::cache", "optimized resource file",
      [field "kind" kind.name, field "path" path, count "merged" b.merge.merged.length,
        count "skipped" b.merge.omitted.length, field "steps" (Text.quotedList b.run.applied)]⟩
  | .error e =>
    ⟨.error, "wpo_storage::cache", "artifact build failed",
      [field "kind" kind.name, count "members" (b.merge.merged.length + b.merge.omitted.length),
        field "error" e.message]⟩

/-- The events of a request for an artifact of a kind; only building one is told. -/
def ofRequest (kind : Kind) : Request → List Event
  | .empty => []
  | .cached _ => []
  | .ran b => ofMerge b.merge ++ ofRun b.merge.path b.run ++ [ofOutcome kind b]

/-- The events of an attempt to optimize a page. -/
def ofAttempt (kind : Kind) : Attempt → List Event
  | .unreadable _ => []
  | .unchanged _ => []
  | .requested request _ => ofRequest kind request

/-- The events of serving the page at a route. -/
def ofService (kind : Kind) (route : String) : Service → List Event
  | .disabled _ => []
  | .blank _ => []
  | .cached _ =>
    let key : PageKey := ⟨kind, route⟩
    [⟨.debug, "wpo_web::body_cache", "optimized body loaded from cache", [field "page" key.text]⟩]
  | .attempted attempt _ =>
    ofAttempt kind attempt ++
    match attempt.result with
    | .ok _ => []
    | .error e =>
      [⟨.error, "wpo_web::optimizer", "cannot generate optimized body, serving original",
        [field "kind" kind.name, field "route" route, field "error" e.message]⟩]

end PageBundle.Log
