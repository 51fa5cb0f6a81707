import PageBundle.Collection.Table

/-!
# Values that are built once

A map whose values are built on demand. A request puts a cell for its key into the map if there is
none. A build gives a report, from which the value is taken if the build succeeded, and this fills
the cell. A value that is stored stays; a build that fails leaves the cell empty, so that the next
request for its key builds again.
-/

namespace PageBundle

/-- Cells for the values of keys, which are empty until a build has succeeded. -/
structure BuildOnce (κ ν : Type) [BEq κ] where
  cells : Table κ (Option ν) := .empty

/-- How a request was answered. -/
inductive Lookup (ν β : Type) where
  /-- The value was stored. -/
  | cached (value : ν)
  /-- The request ran a build. -/
  | ran (report : β)
  deriving Repr

/-- Whether the request ran a build. -/
def Lookup.wasBuilt {ν β : Type} : Lookup ν β → Bool
  | .cached _ => false
  | .ran _ => true

namespace BuildOnce

variable {κ ν β : Type} [BEq κ]

/-- The value that is stored for a key. -/
def get? (c : BuildOnce κ ν) (key : κ) : Option ν :=
  (c.cells.get? key).join

/-- How many values are stored; empty cells do not count. -/
def size (c : BuildOnce κ ν) : Nat :=
  c.cells.entries.countP (·.2.isSome)

/-- The map with a cell for a key, which is empty if it is new. -/
def enlist (c : BuildOnce κ ν) (key : κ) : BuildOnce κ ν :=
  if c.cells.contains key then c else ⟨c.cells.insert key none⟩

/-- The map after a build for a key with an empty cell. -/
def record (c : BuildOnce κ ν) (key : κ) : Option ν → BuildOnce κ ν
  | some value => ⟨c.cells.insert key (some value)⟩
  | none => c

/-- Answers a request for a key: with the value in its cell, or by a build for the cell, which is new
if there was none. -/
def request {m : Type → Type} [Monad m] (c : BuildOnce κ ν) (key : κ) (value? : β → Option ν)
    (build : m β) : m (Lookup ν β × BuildOnce κ ν) :=
  match c.get? key with
  | some value => pure (.cached value, c)
  | none => do
    let report ← build
    return (.ran report, (c.enlist key).record key (value? report))

end BuildOnce

end PageBundle
