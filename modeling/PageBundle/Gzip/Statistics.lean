/-!
# Compression statistics

How many bytes went into the compressor and came out of it. The counters are 64-bit words and wrap.
-/

namespace PageBundle.Gzip

/-- Totals over the compressions so far. -/
structure Statistics where
  inputBytes : UInt64 := 0
  outputBytes : UInt64 := 0
  count : UInt64 := 0
  deriving DecidableEq, Repr

namespace Statistics

/-- The totals after one more compression. -/
def record (s : Statistics) (input output : UInt64) : Statistics :=
  ⟨s.inputBytes + input, s.outputBytes + output, s.count + 1⟩

/-- Output by input; one when nothing went in. -/
def ratio (s : Statistics) : Float :=
  if s.inputBytes == 0 then 1.0 else s.outputBytes.toFloat / s.inputBytes.toFloat

/-- The share of the input that was saved. -/
def savings (s : Statistics) : Float :=
  1.0 - s.ratio

end Statistics

end PageBundle.Gzip
