import PageBundle.Cache.Artifacts
import PageBundle.Cache.Bodies
import PageBundle.Markup.Rewrite
import PageBundle.Settings.Basic

/-!
# Optimizing pages

An optimizer replaces the elements of a page that refer to scripts or style sheets by one element
for the artifact that merges them. `page` never fails: a page that cannot be optimized is served as
it is. `attempt` tells what goes wrong.
-/

namespace PageBundle

/-- Why a page cannot be optimized. -/
inductive OptimizeError where
  | store (e : Store.Error)
  | markup (e : Markup.Error)
  deriving DecidableEq, Repr

/-- The wording of an error. -/
def OptimizeError.message : OptimizeError → String
  | .store e => s!"storage error: {e.message}"
  | .markup e => s!"markup error: {e.message}"

/-- A page with spaces in the place of NUL characters. -/
def scrub (page : String) : String :=
  String.ofList (page.toList.map fun c => if c == '\x00' then ' ' else c)

/-- What an attempt to optimize a page came to. -/
inductive Attempt where
  | unreadable (e : Markup.Error)
  /-- No element of the page is eligible. -/
  | unchanged (page : String)
  /-- The artifact was requested; the page that refers to it, if there is one. -/
  | requested (request : Request) (rewritten : String → String)

/-- The optimized page, or why there is none. -/
def Attempt.result : Attempt → Except OptimizeError String
  | .unreadable e => .error (.markup e)
  | .unchanged page => .ok page
  | .requested request rewritten =>
    match request.path with
    | .ok path => .ok (rewritten path)
    | .error e => .error (.store e)

/-- How a page was served. -/
inductive Service where
  /-- As it is, since optimizing is switched off. -/
  | disabled (page : String)
  | blank (page : String)
  | cached (body : String)
  /-- After an attempt; as `page` if it failed. -/
  | attempted (attempt : Attempt) (page : String)

/-- The page that is served. -/
def Service.body : Service → String
  | .disabled page => page
  | .blank page => page
  | .cached body => body
  | .attempted attempt page => attempt.result.toOption.getD page

/-- Settings, and what was built and rendered so far. -/
structure Optimizer where
  settings : Settings
  scripts : ArtifactCache
  styles : ArtifactCache
  bodies : BodyCache := {}

namespace Optimizer

/-- The artifacts of a kind before the first request. -/
def artifactsFor (settings : Settings) (tools : Tools) (charset : Charset) (kind : Kind) :
    ArtifactCache :=
  let policy := settings.policy kind
  { kind, charset, tools
    mode := settings.buildMode
    directory := policy.directoryFor kind
    pipeline := .ofPolicy charset kind policy settings.minify settings.compress }

/-- An optimizer with some settings, if they name a charset. -/
def ofSettings? (settings : Settings) (tools : Tools := .builtIn) : Option Optimizer :=
  (settings.charset? tools).map fun charset =>
    { settings
      scripts := artifactsFor settings tools charset .script
      styles := artifactsFor settings tools charset .style }

/-- The artifacts of a kind. -/
def artifacts (o : Optimizer) : Kind → ArtifactCache
  | .script => o.scripts
  | .style => o.styles

/-- The optimizer with other artifacts of a kind. -/
def withArtifacts (o : Optimizer) (kind : Kind) (artifacts : ArtifactCache) : Optimizer :=
  match kind with
  | .script => { o with scripts := artifacts }
  | .style => { o with styles := artifacts }

variable {m : Type → Type} [Monad m]

/-- Tries to optimize a page. -/
def attempt (o : Optimizer) (store : Store m) (kind : Kind) (page : String) :
    m (Attempt × Optimizer) := do
  let page := scrub page
  match Markup.pieces o.settings.excludeKeywords kind page.toList with
  | .error e => return (.unreadable e, o)
  | .ok pieces =>
    let set := ReferenceSet.ofList (Markup.eligibleIds pieces)
    if set.isEmpty then return (.unchanged page, o)
    let (request, artifacts) ← (o.artifacts kind).request store set
    let rewritten (path : String) :=
      Markup.rewrite kind (o.settings.contextPrefix ++ path) pieces
    return (.requested request rewritten, o.withArtifacts kind artifacts)

/-- Serves a page that is neither blank nor to be left as it is. -/
def serve (o : Optimizer) (store : Store m) (kind : Kind) (route page : String) :
    m (Service × Optimizer) := do
  if o.settings.cache then
    let body? (report : Attempt × Optimizer) := report.1.result.toOption
    let (lookup, bodies) ← o.bodies.request ⟨kind, route⟩ body? (o.attempt store kind page)
    match lookup with
    | .cached body => return (.cached body, { o with bodies })
    | .ran (attempt, o) => return (.attempted attempt page, { o with bodies })
  else
    let (attempt, o) ← o.attempt store kind page
    return (.attempted attempt page, o)

/-- Serves the page at a route, optimized if that is possible. Blank pages and failures are not
kept. -/
def page (o : Optimizer) (store : Store m) (kind : Kind) (route page : String) :
    m (Service × Optimizer) :=
  if !o.settings.enabled then pure (.disabled page, o)
  else if Text.isBlankText (scrub page) then pure (.blank (scrub page), o)
  else o.serve store kind route (scrub page)

end Optimizer

end PageBundle
