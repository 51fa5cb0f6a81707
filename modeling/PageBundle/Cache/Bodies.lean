import PageBundle.Cache.BuildOnce
import PageBundle.Resource.Kind
import PageBundle.Value.Basic

/-!
# Bodies that are rendered once

The optimized bodies of pages, each rendered on the first request for its kind and its route.
-/

namespace PageBundle

/-- What tells the bodies of pages apart. -/
structure PageKey where
  kind : Kind
  route : String
  deriving DecidableEq, Repr

namespace PageKey

/-- The text of a key. -/
def text (k : PageKey) : String :=
  k.kind.name ++ ":" ++ k.route

/-- The key as a value. -/
def toValue (k : PageKey) : Value :=
  .table [("kind", .text k.kind.name), ("route", .text k.route)]

end PageKey

/-- Bodies under the keys of their pages. -/
structure BodyCache where
  bodies : BuildOnce PageKey String := {}
  hits : UInt64 := 0
  renders : UInt64 := 0

namespace BodyCache

/-- The body that is stored for a page. -/
def get? (c : BodyCache) (key : PageKey) : Option String :=
  c.bodies.get? key

/-- How many bodies are stored. -/
def size (c : BodyCache) : Nat :=
  c.bodies.size

/-- The cache after a request that found `bodies` or left them. A rendering that gives no body is
not counted. -/
def record {β : Type} (c : BodyCache) (bodies : BuildOnce PageKey String) (body? : β → Option String) :
    Lookup String β → BodyCache
  | .cached _ => { c with bodies, hits := c.hits + 1 }
  | .ran report =>
    if (body? report).isSome then { c with bodies, renders := c.renders + 1 } else { c with bodies }

/-- Answers a request for a body, by rendering the page if none is stored. -/
def request {m : Type → Type} [Monad m] {β : Type} (c : BodyCache) (key : PageKey)
    (body? : β → Option String) (render : m β) : m (Lookup String β × BodyCache) := do
  let (lookup, bodies) ← c.bodies.request key body? render
  return (lookup, c.record bodies body? lookup)

end BodyCache

end PageBundle
