import PageBundle.StyleSheet.Rule

/-!
# Redundant rules

A rule takes the place of an earlier one that has the same selectors and sets the same properties,
since nothing of the earlier one is left to see. Two neighbours with the same selectors, or with the
same declarations, become one rule. `condense` does both while it adds the rules of a sheet one by
one; a rule that has been joined with a later one is no longer taken for what it was when it was
added, so that only one of the two happens to it.
-/

namespace PageBundle.StyleSheet

/-- The properties that a rule sets after all others, in this order and only once. -/
def closingProperties : List (List Char) :=
  ["display".toList, "position".toList]

/-- The declarations with one more. The last `color` takes the place of the first. -/
def addDeclaration (ds : List Declaration) (d : Declaration) : List Declaration :=
  if d.property == "color".toList && ds.any (·.property == d.property) then
    ds.map fun other => if other.property == d.property then d else other
  else ds ++ [d]

/-- The declarations of a rule in the order in which they are written, without those that later ones
replace. -/
def settle (ds : List Declaration) : List Declaration :=
  let isClosing (d : Declaration) := closingProperties.contains d.property
  let closing := closingProperties.filterMap fun property =>
    (ds.filter (·.property == property)).getLast?
  (ds.filter (!isClosing ·)).foldl addDeclaration [] ++ closing

/-- What a rule is about: its selectors and the properties that it sets. -/
structure Scope where
  selectors : List Selector
  properties : List (List Char)
  deriving DecidableEq, Repr

namespace Rule

/-- What the rule is about. -/
def scope (r : Rule) : Scope :=
  ⟨r.selectors, r.declarations.map (·.property)⟩

/-- The rule that stands for two neighbours, if they share the selectors or the declarations. -/
def join? (earlier later : Rule) : Option Rule :=
  if later.selectors == earlier.selectors then
    some { earlier with declarations := settle (earlier.declarations ++ later.declarations) }
  else if later.declarations == earlier.declarations then
    some { earlier with selectors := earlier.selectors ++ later.selectors }
  else none

end Rule

/-- A place that a rule was added at. -/
structure Place where
  rule : Rule
  /-- What the rule was about when it was added. -/
  added : Scope
  /-- Whether a later rule has taken its place. -/
  overridden : Bool := false
  deriving DecidableEq, Repr

namespace Place

/-- The place that a rule is added at. -/
def of (r : Rule) : Place :=
  { rule := r, added := r.scope }

/-- The place with a later neighbour joined to its rule, if they go together. -/
def join? (p : Place) (later : Rule) : Option Place :=
  if p.overridden then none else (p.rule.join? later).map fun rule => { p with rule }

/-- The place after a rule about `scope` was added. -/
def yieldTo (p : Place) (scope : Scope) : Place :=
  { p with overridden := p.overridden || (p.added == scope && p.rule.scope == scope) }

/-- The latest place before others, the latest of them first, and joined with them as far as they go
together. -/
def onto (p : Place) : List Place → List Place
  | [] => [p]
  | earlier :: places =>
    match earlier.join? p.rule with
    | some joined => joined.onto places
    | none => p :: earlier :: places

/-- The places, the latest first, with one more rule. -/
def add (places : List Place) (r : Rule) : List Place :=
  match places with
  | [] => [of r]
  | latest :: earlier =>
    match latest.join? r with
    | some joined => joined.onto earlier
    | none => of r :: places.map (·.yieldTo r.scope)

end Place

/-- The rules that are left of those of a sheet. -/
def condense (rules : List Rule) : List Rule :=
  ((rules.foldl Place.add []).filter (!·.overridden)).reverse.map (·.rule)

end PageBundle.StyleSheet
