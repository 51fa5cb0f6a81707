/-!
# Canonical prefix codes

A canonical code is given by the length of each symbol's word: words of one length are consecutive
numbers in the order of their symbols, and shorter words come before longer ones. A word is read bit
by bit, its highest bit first.
-/

namespace PageBundle.Gzip

/-- Why compressed data cannot be read. -/
inductive InflateError where
  /-- The data ends too early. -/
  | incomplete
  /-- The data is not what a compressor writes. -/
  | corrupt
  deriving DecidableEq, Repr

/-- How many words of each length from 1 to 15 there are, and the symbols in the order of their
words. -/
structure PrefixCode where
  counts : List Nat
  symbols : Array Nat

namespace PrefixCode

/-- The longest word of a code. -/
def maxLength : Nat := 15

/-- The code in which symbol `i` has a word of length `lengths[i]`, or none if that is zero. -/
def ofLengths (lengths : List Nat) : PrefixCode :=
  let indexed := lengths.zipIdx
  let ofLength (n : Nat) := (indexed.filter fun e => e.1 == n).map (·.2)
  ⟨(List.range maxLength).map fun n => (ofLength (n + 1)).length,
    ((List.range maxLength).flatMap fun n => ofLength (n + 1)).toArray⟩

/-- How much room the words take, of as many words as the longest length has. -/
def room (code : PrefixCode) : Nat :=
  code.counts.zipIdx.foldl (fun total e => total + e.1 <<< (maxLength - 1 - e.2)) 0

/-- Whether the words fill the room exactly. A code of at most one word need not fill it. -/
def isUsable (code : PrefixCode) : Bool :=
  code.room == 1 <<< maxLength || code.symbols.size ≤ 1

/-- The symbol whose word the bits begin with, when `word` is read already: the words of the next
length begin with `first`, and their symbols with the one at `index`. -/
def readFrom (symbols : Array Nat) (word first index : Nat) :
    List Nat → List Bool → Except InflateError (Nat × List Bool)
  | [], _ => .error .corrupt
  | _ :: _, [] => .error .incomplete
  | count :: counts, bit :: bits =>
    let word := 2 * word + bit.toNat
    if word < first + count then
      match symbols[index + (word - first)]? with
      | some symbol => .ok (symbol, bits)
      | none => .error .corrupt
    else readFrom symbols word (2 * (first + count)) (index + count) counts bits

/-- The symbol whose word the bits begin with, and the rest of the bits. -/
def read (code : PrefixCode) (bits : List Bool) : Except InflateError (Nat × List Bool) :=
  readFrom code.symbols 0 0 0 code.counts bits

end PrefixCode

end PageBundle.Gzip
