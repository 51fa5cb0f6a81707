import PageBundle.Bytes

/-!
# CRC-32

The cyclic redundancy check of gzip: the remainder of the data, taken as a polynomial with the
lowest bit of each byte first, by the polynomial whose reversed form is EDB88320.
-/

namespace PageBundle.Crc32

/-- Divides out one bit. -/
def shift (r : UInt32) : UInt32 :=
  if r &&& 1 == 1 then (r >>> 1) ^^^ 0xEDB88320 else r >>> 1

/-- The remainder after one more byte. -/
def step (r : UInt32) (b : UInt8) : UInt32 :=
  (List.range 8).foldl (fun r _ => shift r) (r ^^^ b.toUInt32)

/-- The check of some bytes. -/
def ofBytes (bs : Bytes) : UInt32 :=
  ~~~ (bs.foldl step 0xFFFFFFFF)

end PageBundle.Crc32
