import PageBundle.Log.Directive

/-!
# Log filters

A filter is a list of directives, written with commas between them. Of the directives that are for
an event, the one for the longest beginning of its target counts, and one that names a field before
one that does not; an event that none is for is not let through.
-/

namespace PageBundle.Log

/-- Directives in order. -/
structure Filter where
  directives : List Directive
  deriving DecidableEq, Repr

namespace Filter

/-- The filter that a text writes. One without directives lets errors through. -/
def parse (text : String) : Except ParseFault Filter :=
  match (text.toList.splitOn ',').filter (!·.isEmpty) with
  | [] => .ok ⟨[⟨"", none, Level.error.rank⟩]⟩
  | parts => do
    let directives ← parts.mapM Directive.parse
    return ⟨directives.filterMap id⟩

/-- The one of two directives for the same event that counts, the second one given later. -/
def stronger (best : Option Directive) (d : Directive) : Option Directive :=
  if best.all d.overrides then some d else best

/-- The directive that counts for an event. -/
def directiveFor? (f : Filter) (e : Event) : Option Directive :=
  (f.directives.filter (·.appliesTo e)).foldl stronger none

/-- Whether an event is let through. -/
def admits (f : Filter) (e : Event) : Bool :=
  (f.directiveFor? e).any fun d => e.level.rank ≤ d.limit

/-- The filter that lets events from some targets through up to a level. -/
def ofTargets (targets : List String) (level : Level) : Filter :=
  ⟨targets.map fun target => ⟨target, none, level.rank⟩⟩

/-- The targets of this program. -/
def ownTargets : List String := ["wpo", "wpo_storage", "wpo_web"]

/-- The filter that the variable `RUST_LOG` writes; the own targets up to a level if it is missing or
malformed. A torn filter is none. -/
def ofVariables (environment : List (String × String)) (level : Level) : Option Filter :=
  match environment.find? fun v => v.1 == "RUST_LOG" with
  | none => some (ofTargets ownTargets level)
  | some (_, text) =>
    match parse text with
    | .ok filter => some filter
    | .error .malformed => some (ofTargets ownTargets level)
    | .error .torn => none

end Filter

end PageBundle.Log
