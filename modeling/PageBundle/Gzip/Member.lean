import PageBundle.Digest.Crc32
import PageBundle.Gzip.Inflate
import PageBundle.Gzip.Level

/-!
# Gzip members

A member is a header, the data in compressed form, and a trailer with the check and the length of
the data. `compress` writes one member; `expand` reads the first member of its input and ignores
what follows it.
-/

namespace PageBundle.Gzip

/-- Why a gzip member cannot be read or written. -/
inductive Error where
  /-- The header or the trailer is cut short. -/
  | truncated
  /-- The data does not begin like a gzip member. -/
  | badHeader
  | inflate (e : InflateError)
  /-- The check or the length differs. -/
  | mismatch
  /-- What another compressor tells. -/
  | other (message : String)
  deriving DecidableEq, Repr

/-- The wording of an error. -/
def Error.message : Error → String
  | .truncated => "unexpected end of file"
  | .badHeader => "invalid gzip header"
  | .inflate .incomplete => "incomplete deflate stream"
  | .inflate .corrupt => "corrupt deflate stream"
  | .mismatch => "corrupt gzip stream does not have a matching checksum"
  | .other message => message

/-- The header that is written: no optional field, no time, an unknown operating system. -/
def header (level : Level) : Bytes :=
  [0x1F, 0x8B, 8, 0, 0, 0, 0, 0, level.extraFlags, 0xFF]

/-- The check and the length of the data, four bytes each. -/
def trailer (bs : Bytes) : Bytes :=
  littleEndian 4 (Crc32.ofBytes bs).toNat ++ littleEndian 4 bs.length

/-- The data as one gzip member. -/
def compress (level : Level) (bs : Bytes) : Bytes :=
  header level ++ deflateStored bs ++ trailer bs

/-- The bytes after a text that ends with a zero. -/
def afterZero? : Bytes → Option Bytes
  | [] => none
  | b :: bs => if b == 0 then some bs else afterZero? bs

/-- The bytes after a field that begins with its length in two bytes. -/
def afterField? : Bytes → Option Bytes
  | a :: b :: bs =>
    let n := ofLittleEndian [a, b]
    if bs.length < n then none else some (bs.drop n)
  | _ => none

/-- Passes over an optional field if its bit is set in the flags. -/
def afterOptional (flags : UInt8) (bit : Nat) (after? : Bytes → Option Bytes) (bs : Bytes) :
    Except Error Bytes :=
  if flags.toNat.testBit bit then
    match after? bs with
    | some bs => .ok bs
    | none => .error .truncated
  else .ok bs

/-- Checks the two bytes that may end the header against all of it that stands before them. -/
def checkHeader (flags : UInt8) (whole bs : Bytes) : Except Error Bytes :=
  if flags.toNat.testBit 1 then
    match bs with
    | a :: b :: rest =>
      let read := whole.take (whole.length - bs.length)
      if ofLittleEndian [a, b] == (Crc32.ofBytes read).toNat % 65536 then .ok rest
      else .error .mismatch
    | _ => .error .truncated
  else .ok bs

/-- The bytes after the header. -/
def afterHeader (whole : Bytes) : Except Error Bytes :=
  match whole with
  | id1 :: id2 :: method :: flags :: _ :: _ :: _ :: _ :: _ :: _ :: bs =>
    if id1 != 0x1F || id2 != 0x8B || method != 8 || 32 ≤ flags then .error .badHeader
    else do
      let bs ← afterOptional flags 2 afterField? bs
      let bs ← afterOptional flags 3 afterZero? bs
      let bs ← afterOptional flags 4 afterZero? bs
      checkHeader flags whole bs
  | _ => .error .truncated

/-- The data of the first member. -/
def expand (whole : Bytes) : Except Error Bytes := do
  let bs ← afterHeader whole
  match inflate bs with
  | .error e => .error (.inflate e)
  | .ok (data, rest) =>
    if rest.length < 8 then .error .truncated
    else if rest.take 8 == trailer data then .ok data
    else .error .mismatch

end PageBundle.Gzip
