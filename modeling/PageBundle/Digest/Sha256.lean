import PageBundle.Bytes

/-!
# SHA-256

The digest of FIPS 180-4. A message is padded to whole blocks of 64 bytes; each block is spread into
64 words, and eight chaining words are stirred with them.
-/

namespace PageBundle.Sha256

/-- The first 32 bits of the fractional parts of the cube roots of the first 64 primes. -/
def roundConstants : List UInt32 :=
  [0x428a2f98, 0x71374491, 0xb5c0fbcf, 0xe9b5dba5, 0x3956c25b, 0x59f111f1, 0x923f82a4, 0xab1c5ed5,
   0xd807aa98, 0x12835b01, 0x243185be, 0x550c7dc3, 0x72be5d74, 0x80deb1fe, 0x9bdc06a7, 0xc19bf174,
   0xe49b69c1, 0xefbe4786, 0x0fc19dc6, 0x240ca1cc, 0x2de92c6f, 0x4a7484aa, 0x5cb0a9dc, 0x76f988da,
   0x983e5152, 0xa831c66d, 0xb00327c8, 0xbf597fc7, 0xc6e00bf3, 0xd5a79147, 0x06ca6351, 0x14292967,
   0x27b70a85, 0x2e1b2138, 0x4d2c6dfc, 0x53380d13, 0x650a7354, 0x766a0abb, 0x81c2c92e, 0x92722c85,
   0xa2bfe8a1, 0xa81a664b, 0xc24b8b70, 0xc76c51a3, 0xd192e819, 0xd6990624, 0xf40e3585, 0x106aa070,
   0x19a4c116, 0x1e376c08, 0x2748774c, 0x34b0bcb5, 0x391c0cb3, 0x4ed8aa4a, 0x5b9cca4f, 0x682e6ff3,
   0x748f82ee, 0x78a5636f, 0x84c87814, 0x8cc70208, 0x90befffa, 0xa4506ceb, 0xbef9a3f7, 0xc67178f2]

/-- The eight chaining words. -/
structure Chain where
  a : UInt32
  b : UInt32
  c : UInt32
  d : UInt32
  e : UInt32
  f : UInt32
  g : UInt32
  h : UInt32
  deriving DecidableEq, Repr

/-- The chaining words before the first block. -/
def Chain.initial : Chain :=
  ⟨0x6a09e667, 0xbb67ae85, 0x3c6ef372, 0xa54ff53a, 0x510e527f, 0x9b05688c, 0x1f83d9ab, 0x5be0cd19⟩

/-- Word-wise sum. -/
def Chain.add (x y : Chain) : Chain :=
  ⟨x.a + y.a, x.b + y.b, x.c + y.c, x.d + y.d, x.e + y.e, x.f + y.f, x.g + y.g, x.h + y.h⟩

/-- The words in order. -/
def Chain.words (x : Chain) : List UInt32 :=
  [x.a, x.b, x.c, x.d, x.e, x.f, x.g, x.h]

/-- Rotation to the right. -/
def rotate (x : UInt32) (n : UInt32) : UInt32 :=
  (x >>> n) ||| (x <<< (32 - n))

/-- The bytes of a word, the highest first. -/
def wordBytes (w : UInt32) : Bytes :=
  [(w >>> 24).toUInt8, (w >>> 16).toUInt8, (w >>> 8).toUInt8, w.toUInt8]

/-- The words of some bytes, the highest byte of each first. -/
def wordsOf : Bytes → List UInt32
  | p :: q :: r :: s :: rest =>
    ((p.toUInt32 <<< 24) ||| (q.toUInt32 <<< 16) ||| (r.toUInt32 <<< 8) ||| s.toUInt32)
      :: wordsOf rest
  | _ => []

/-- The word of the schedule that follows the words `w`. -/
def nextWord (w : Array UInt32) : UInt32 :=
  let x := w.getD (w.size - 15) 0
  let y := w.getD (w.size - 2) 0
  w.getD (w.size - 16) 0 + (rotate x 7 ^^^ rotate x 18 ^^^ (x >>> 3)) +
    w.getD (w.size - 7) 0 + (rotate y 17 ^^^ rotate y 19 ^^^ (y >>> 10))

/-- The 64 words of a block. -/
def schedule (block : Bytes) : Array UInt32 :=
  (List.range 48).foldl (fun w _ => w.push (nextWord w)) (wordsOf block).toArray

/-- One round with the constant `k` and the word `w`. -/
def stir (x : Chain) (k w : UInt32) : Chain :=
  let t1 := x.h + (rotate x.e 6 ^^^ rotate x.e 11 ^^^ rotate x.e 25) +
    ((x.e &&& x.f) ^^^ ((~~~ x.e) &&& x.g)) + k + w
  let t2 := (rotate x.a 2 ^^^ rotate x.a 13 ^^^ rotate x.a 22) +
    ((x.a &&& x.b) ^^^ (x.a &&& x.c) ^^^ (x.b &&& x.c))
  ⟨t1 + t2, x.a, x.b, x.c, x.d + t1, x.e, x.f, x.g⟩

/-- The chaining words after one more block. -/
def absorb (x : Chain) (block : Bytes) : Chain :=
  x.add ((roundConstants.zip (schedule block).toList).foldl (fun y kw => stir y kw.1 kw.2) x)

/-- The chaining words after all whole blocks of `bs`. -/
def absorbAll (x : Chain) (bs : Bytes) : Chain :=
  if 64 ≤ bs.length then absorbAll (absorb x (bs.take 64)) (bs.drop 64) else x
termination_by bs.length
decreasing_by simp only [List.length_drop]; omega

/-- The message, a set bit, zeros up to a whole number of blocks, and the length in bits. -/
def pad (message : Bytes) : Bytes :=
  message ++ 0x80 :: (List.replicate ((119 - message.length % 64) % 64) 0 ++
    bigEndian 8 (8 * message.length))

/-- The 32 bytes of the digest. -/
def digest (message : Bytes) : Bytes :=
  (absorbAll Chain.initial (pad message)).words.flatMap wordBytes

end PageBundle.Sha256
