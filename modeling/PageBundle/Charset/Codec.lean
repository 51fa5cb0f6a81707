import PageBundle.Text.Utf8

/-!
# Codecs

How the bytes of a charset become characters and back. Decoding fails at malformed bytes, encoding
at a character that the charset lacks. What holds of charsets holds of any two such functions; the
codecs that are given here are those of UTF-8 and of tables of characters.
-/

namespace PageBundle.Charset

/-- A way of encoding texts. -/
structure Codec where
  /-- The characters of some bytes, unless they are malformed. -/
  decode? : Bytes → Option (List Char)
  /-- The bytes of some characters, unless one of them cannot be encoded. -/
  encode? : List Char → Option Bytes

namespace Codec

/-- The bytes without one byte order mark at their start. -/
def dropMark : Bytes → Bytes
  | 0xEF :: 0xBB :: 0xBF :: bs => bs
  | bs => bs

/-- The character of an ASCII byte. -/
def asciiChar? (b : UInt8) : Option Char :=
  if b < 0x80 then some (Char.ofNat b.toNat) else none

/-- The byte of an ASCII character. -/
def asciiByte? (c : Char) : Option UInt8 :=
  if c.toNat < 0x80 then some c.toUInt8 else none

/-- The character of a byte of a single-byte charset. -/
def singleChar? (table : List Nat) (b : UInt8) : Option Char :=
  if b < 0x80 then some (Char.ofNat b.toNat) else table[b.toNat - 0x80]?.map Char.ofNat

/-- The byte of a character of a single-byte charset. -/
def singleByte? (table : List Nat) (c : Char) : Option UInt8 :=
  if c.toNat < 0x80 then some c.toUInt8
  else (table.idxOf? c.toNat).map fun i => UInt8.ofNat (0x80 + i)

/-- The characters of double-byte text, after `read`, held backwards. -/
def doubleFrom (byte : UInt8) (codePoint : Nat) (table : List (UInt8 × UInt8 × Nat))
    (read : List Char) : Bytes → Option (List Char)
  | [] => some read.reverse
  | b :: bs =>
    if b < 0x80 then doubleFrom byte codePoint table (Char.ofNat b.toNat :: read) bs
    else if b == byte then doubleFrom byte codePoint table (Char.ofNat codePoint :: read) bs
    else
      match bs with
      | [] => none
      | trail :: bs =>
        match table.find? fun e => e.1 == b && e.2.1 == trail with
        | some e => doubleFrom byte codePoint table (Char.ofNat e.2.2 :: read) bs
        | none => none

/-- The bytes of a character of a double-byte charset. -/
def doubleBytes? (byte : UInt8) (codePoint : Nat) (table : List (UInt8 × UInt8 × Nat)) (c : Char) :
    Option Bytes :=
  if c.toNat < 0x80 then some [c.toUInt8]
  else if c.toNat == codePoint then some [byte]
  else (table.find? fun e => e.2.2 == c.toNat).map fun e => [e.1, e.2.1]

/-- UTF-8; when it is read, one byte order mark at the start is dropped. -/
def utf8 : Codec where
  decode? bs := Utf8.decode? (dropMark bs)
  encode? cs := some (Utf8.encode cs)

/-- ASCII alone. -/
def asciiOnly : Codec where
  decode? bs := bs.mapM asciiChar?
  encode? cs := cs.mapM asciiByte?

/-- One byte a character; the table has the code points of the bytes 80 to FF. -/
def single (table : List Nat) : Codec where
  decode? bs := bs.mapM (singleChar? table)
  encode? cs := cs.mapM (singleByte? table)

/-- One byte for ASCII characters and one other character, two bytes for those of the table. -/
def double (byte : UInt8) (codePoint : Nat) (table : List (UInt8 × UInt8 × Nat)) : Codec where
  decode? bs := doubleFrom byte codePoint table [] bs
  encode? cs := (cs.mapM (doubleBytes? byte codePoint table)).map List.flatten

end Codec

end PageBundle.Charset
