import PageBundle.Digest.Sha256
import PageBundle.Resource.ReferenceSet
import PageBundle.Text.Hex

/-!
# Fingerprints

The fingerprint of a reference set is a digest of its members that does not depend on their order.
What is hashed gives each member, in canonical order, after its length, so that it can be cut into
members again in one way only.
-/

namespace PageBundle

/-- The first sixteen bytes of a digest. -/
structure Fingerprint where
  bytes : Bytes
  deriving DecidableEq, Repr

namespace Fingerprint

/-- A member as it is hashed: the number of its bytes in eight bytes, then the bytes. -/
def frame (id : String) : Bytes :=
  littleEndian 8 (Utf8.ofString id).length ++ Utf8.ofString id

/-- What is hashed of a set. -/
def stream (s : ReferenceSet) : Bytes :=
  s.canonical.flatMap frame

/-- The fingerprint of a set. -/
def of (s : ReferenceSet) : Fingerprint :=
  ⟨(Sha256.digest (stream s)).take 16⟩

/-- The fingerprint in hexadecimal. -/
def hex (f : Fingerprint) : String :=
  Hex.ofBytes f.bytes

end Fingerprint

end PageBundle
