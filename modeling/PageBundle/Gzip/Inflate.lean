import PageBundle.Bytes
import PageBundle.Gzip.Huffman

/-!
# Inflating

The deflate format is a sequence of blocks: stored bytes, or literals and back references in two
prefix codes, which are fixed or described at the start of the block. The bits of a byte are read
from the lowest. Each block, and each symbol in it, takes at least one bit, so that the number of
bits bounds the work.
-/

namespace PageBundle.Gzip

/-- The bits of a byte, the lowest first. -/
def bitsOfByte (b : UInt8) : List Bool :=
  (List.range 8).map fun i => b.toNat.testBit i

/-- The bits of some bytes. -/
def bitsOf (bs : Bytes) : List Bool :=
  bs.flatMap bitsOfByte

/-- The number of `width` bits, the lowest first, and the rest. -/
def takeBits : Nat → List Bool → Except InflateError (Nat × List Bool)
  | 0, bits => .ok (0, bits)
  | _ + 1, [] => .error .incomplete
  | width + 1, b :: bits => do
    let (n, bits) ← takeBits width bits
    .ok (b.toNat + 2 * n, bits)

/-- The least length and the extra bits of the length symbols, from 257 on. -/
def lengthTable : List (Nat × Nat) :=
  [(3, 0), (4, 0), (5, 0), (6, 0), (7, 0), (8, 0), (9, 0), (10, 0), (11, 1), (13, 1), (15, 1),
   (17, 1), (19, 2), (23, 2), (27, 2), (31, 2), (35, 3), (43, 3), (51, 3), (59, 3), (67, 4),
   (83, 4), (99, 4), (115, 4), (131, 5), (163, 5), (195, 5), (227, 5), (258, 0)]

/-- The least distance and the extra bits of the distance symbols. -/
def distanceTable : List (Nat × Nat) :=
  [(1, 0), (2, 0), (3, 0), (4, 0), (5, 1), (7, 1), (9, 2), (13, 2), (17, 3), (25, 3), (33, 4),
   (49, 4), (65, 5), (97, 5), (129, 6), (193, 6), (257, 7), (385, 7), (513, 8), (769, 8),
   (1025, 9), (1537, 9), (2049, 10), (3073, 10), (4097, 11), (6145, 11), (8193, 12), (12289, 12),
   (16385, 13), (24577, 13)]

/-- The order in which the lengths of the code for lengths are told. -/
def lengthOrder : List Nat :=
  [16, 17, 18, 0, 8, 7, 9, 6, 10, 5, 11, 4, 12, 3, 13, 2, 14, 1, 15]

/-- The fixed code for literals and lengths. -/
def fixedLiterals : PrefixCode :=
  .ofLengths (List.replicate 144 8 ++ List.replicate 112 9 ++ List.replicate 24 7 ++
    List.replicate 8 8)

/-- The fixed code for distances; its last two words stand for no distance. -/
def fixedDistances : PrefixCode :=
  .ofLengths (List.replicate 32 5)

/-- The number that a symbol of a table and its extra bits tell. -/
def extended (table : List (Nat × Nat)) (symbol : Nat) (bits : List Bool) :
    Except InflateError (Nat × List Bool) :=
  match table[symbol]? with
  | none => .error .corrupt
  | some (base, width) => do
    let (extra, bits) ← takeBits width bits
    .ok (base + extra, bits)

/-- Appends `length` bytes that stand `distance` bytes before the end, one after the other. -/
def copyBack (distance : Nat) : Nat → Array UInt8 → Array UInt8
  | 0, out => out
  | length + 1, out => copyBack distance length (out.push (out.getD (out.size - distance) 0))

/-- The symbols of a block up to its end. -/
def inflateSymbols (literals distances : PrefixCode) :
    Nat → List Bool → Array UInt8 → Except InflateError (List Bool × Array UInt8)
  | 0, _, _ => .error .incomplete
  | fuel + 1, bits, out =>
    match literals.read bits with
    | .error e => .error e
    | .ok (symbol, bits) =>
      if symbol < 256 then
        inflateSymbols literals distances fuel bits (out.push (UInt8.ofNat symbol))
      else if symbol == 256 then .ok (bits, out)
      else
        let reference := do
          let (length, bits) ← extended lengthTable (symbol - 257) bits
          let (symbol, bits) ← distances.read bits
          let (distance, bits) ← extended distanceTable symbol bits
          if distance > out.size then .error .corrupt
          else .ok (length, distance, bits)
        match reference with
        | .error e => .error e
        | .ok (length, distance, bits) =>
          inflateSymbols literals distances fuel bits (copyBack distance length out)

/-- The bytes that some bits tell. -/
def bytesOfBits (count : Nat) (bits : List Bool) (out : Array UInt8) :
    Except InflateError (List Bool × Array UInt8) :=
  match count with
  | 0 => .ok (bits, out)
  | count + 1 =>
    match takeBits 8 bits with
    | .error e => .error e
    | .ok (n, bits) => bytesOfBits count bits (out.push (UInt8.ofNat n))

/-- A block of stored bytes, which begins at a whole byte with its length and the complement. -/
def inflateStored (bits : List Bool) (out : Array UInt8) :
    Except InflateError (List Bool × Array UInt8) := do
  let (length, bits) ← takeBits 16 (bits.drop (bits.length % 8))
  let (complement, bits) ← takeBits 16 bits
  if length + complement != 65535 then .error .corrupt
  else bytesOfBits length bits out

/-- The lengths of the words of the code for lengths, of which the first `count` are told. -/
def lengthLengths : Nat → List Bool → Except InflateError (List Nat × List Bool)
  | 0, bits => .ok ([], bits)
  | count + 1, bits => do
    let (n, bits) ← takeBits 3 bits
    let (ns, bits) ← lengthLengths count bits
    .ok (n :: ns, bits)

/-- Reads lengths of words until there are `total`, after `lengths`, held backwards. A length may
stand for several: the last one again, or zeros. -/
def wordLengths (code : PrefixCode) (total : Nat) :
    Nat → List Bool → List Nat → Except InflateError (List Nat × List Bool)
  | 0, _, _ => .error .incomplete
  | fuel + 1, bits, lengths =>
    if lengths.length == total then .ok (lengths.reverse, bits)
    else if lengths.length > total then .error .corrupt
    else
      let run := do
        let (symbol, bits) ← code.read bits
        if symbol < 16 then .ok (1, symbol, bits)
        else if symbol == 16 then
          match lengths with
          | [] => .error .corrupt
          | last :: _ => do
            let (n, bits) ← takeBits 2 bits
            .ok (n + 3, last, bits)
        else if symbol == 17 then do
          let (n, bits) ← takeBits 3 bits
          .ok (n + 3, 0, bits)
        else do
          let (n, bits) ← takeBits 7 bits
          .ok (n + 11, 0, bits)
      match run with
      | .error e => .error e
      | .ok (count, length, bits) =>
        wordLengths code total fuel bits (List.replicate count length ++ lengths)

/-- The two codes that a block describes at its start. -/
def blockCodes (bits : List Bool) :
    Except InflateError (PrefixCode × PrefixCode × List Bool) := do
  let (literalCount, bits) ← takeBits 5 bits
  let (distanceCount, bits) ← takeBits 5 bits
  let (lengthCount, bits) ← takeBits 4 bits
  if literalCount > 29 || distanceCount > 29 then .error .corrupt
  else
    let (told, bits) ← lengthLengths (lengthCount + 4) bits
    let pairs := lengthOrder.zip told
    let code := PrefixCode.ofLengths ((List.range 19).map fun symbol =>
      ((pairs.find? fun p => p.1 == symbol).map (·.2)).getD 0)
    if !code.isUsable then .error .corrupt
    else
      let total := literalCount + 257 + (distanceCount + 1)
      let (lengths, bits) ← wordLengths code total (total + 1) bits []
      let literals := PrefixCode.ofLengths (lengths.take (literalCount + 257))
      let distances := PrefixCode.ofLengths (lengths.drop (literalCount + 257))
      if literals.isUsable && distances.isUsable then .ok (literals, distances, bits)
      else .error .corrupt

/-- One block: whether it is the last, the rest of the bits and what is written so far. -/
def inflateBlock (bits : List Bool) (out : Array UInt8) :
    Except InflateError (Bool × List Bool × Array UInt8) := do
  let (final, bits) ← takeBits 1 bits
  let (type, bits) ← takeBits 2 bits
  let (bits, out) ←
    match type with
    | 0 => inflateStored bits out
    | 1 => inflateSymbols fixedLiterals fixedDistances (bits.length + 1) bits out
    | 2 => do
      let (literals, distances, bits) ← blockCodes bits
      inflateSymbols literals distances (bits.length + 1) bits out
    | _ => .error .corrupt
  .ok (final == 1, bits, out)

/-- The blocks up to the last one. -/
def inflateBlocks : Nat → List Bool → Array UInt8 → Except InflateError (List Bool × Array UInt8)
  | 0, _, _ => .error .incomplete
  | fuel + 1, bits, out =>
    match inflateBlock bits out with
    | .error e => .error e
    | .ok (true, bits, out) => .ok (bits, out)
    | .ok (false, bits, out) => inflateBlocks fuel bits out

/-- The data that `bs` begins with in compressed form, and the bytes after it. -/
def inflate (bs : Bytes) : Except InflateError (Bytes × Bytes) :=
  let bits := bitsOf bs
  match inflateBlocks (bits.length + 1) bits #[] with
  | .error e => .error e
  | .ok (rest, out) => .ok (out.toList, bs.drop (bs.length - rest.length / 8))

/-- Data in compressed form, as stored blocks. -/
def deflateStored (bs : Bytes) : Bytes :=
  if 65535 < bs.length then
    0 :: (littleEndian 2 65535 ++ littleEndian 2 0 ++ bs.take 65535 ++
      deflateStored (bs.drop 65535))
  else 1 :: (littleEndian 2 bs.length ++ littleEndian 2 (65535 - bs.length) ++ bs)
termination_by bs.length
decreasing_by simp only [List.length_drop]; omega

end PageBundle.Gzip
