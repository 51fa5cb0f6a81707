import PageBundle.Value.Basic

/-!
# Compression levels

How hard an artifact is compressed. The level is told in the header of the compressed file.
-/

namespace PageBundle.Gzip

/-- A compression level. -/
inductive Level where
  | store
  | fast
  | balanced
  | best
  deriving DecidableEq, Repr

namespace Level

/-- Every level. -/
def all : List Level := [.store, .fast, .balanced, .best]

/-- The name of a level in settings. -/
def name : Level → String
  | .store => "none"
  | .fast => "fast"
  | .balanced => "default"
  | .best => "best"

/-- The level of a name. -/
def ofName? (s : String) : Option Level :=
  all.find? fun level => level.name == s

/-- The level that a value tells. -/
def ofValue? (manner : Value.Manner) (v : Value) : Option Level :=
  (v.choice? manner (all.map name)).bind ofName?

/-- The extra flags of a gzip header: the slowest or one of the fastest algorithms. -/
def extraFlags : Level → UInt8
  | .store | .fast => 4
  | .balanced => 0
  | .best => 2

end Level

end PageBundle.Gzip
