import PageBundle.Bytes

/-!
# UTF-8

`encode` writes a text as bytes and `decode` reads it back strictly: overlong forms, surrogates and
values above U+10FFFF are faults. A fault tells where the readable part ends and how many bytes
there cannot begin a character, or that the bytes end inside one. `decodeLossy` puts a replacement
character in the place of each fault and goes on.
-/

namespace PageBundle.Utf8

/-- The bytes of a sequence of characters. -/
def encode (cs : List Char) : Bytes :=
  cs.flatMap String.utf8EncodeChar

/-- The bytes of a text. -/
def ofString (s : String) : Bytes :=
  encode s.toList

/-- Why some bytes are not the encoding of a text. -/
structure Fault where
  /-- How many bytes before the fault are readable. -/
  index : Nat
  /-- How many bytes at the fault are wrong; nothing when the bytes end inside a character. -/
  length? : Option Nat
  deriving DecidableEq, Repr

/-- The wording of a fault. -/
def Fault.message (f : Fault) : String :=
  match f.length? with
  | some n => s!"invalid utf-8 sequence of {n} bytes from index {f.index}"
  | none => s!"incomplete utf-8 byte sequence from index {f.index}"

/-- What stands at the start of some bytes. -/
inductive Next where
  | done
  | char (c : Char) (rest : Bytes)
  | malformed (length : Nat) (rest : Bytes)
  | truncated
  deriving DecidableEq, Repr

/-- A byte that continues a character. -/
def isTail (b : UInt8) : Bool :=
  0x80 ≤ b && b < 0xC0

/-- The bytes that may follow the first byte of a character of three bytes. -/
def isSecondOfThree (first b : UInt8) : Bool :=
  if first == 0xE0 then 0xA0 ≤ b && b < 0xC0
  else if first == 0xED then 0x80 ≤ b && b < 0xA0
  else isTail b

/-- The bytes that may follow the first byte of a character of four bytes. -/
def isSecondOfFour (first b : UInt8) : Bool :=
  if first == 0xF0 then 0x90 ≤ b && b < 0xC0
  else if first == 0xF4 then 0x80 ≤ b && b < 0x90
  else isTail b

/-- The low six bits, which a continuing byte adds to a code point. -/
def tailBits (b : UInt8) : Nat :=
  b.toNat % 64

/-- Reads one character. -/
def next : Bytes → Next
  | [] => .done
  | a :: r =>
    if a < 0x80 then .char (Char.ofNat a.toNat) r
    else if a < 0xC2 then .malformed 1 r
    else if a < 0xE0 then
      match r with
      | [] => .truncated
      | b :: r => if isTail b then .char (Char.ofNat (a.toNat % 32 * 64 + tailBits b)) r
                  else .malformed 1 (b :: r)
    else if a < 0xF0 then
      match r with
      | [] => .truncated
      | b :: r =>
        if !isSecondOfThree a b then .malformed 1 (b :: r) else
        match r with
        | [] => .truncated
        | c :: r =>
          if isTail c then
            .char (Char.ofNat (a.toNat % 16 * 4096 + tailBits b * 64 + tailBits c)) r
          else .malformed 2 (c :: r)
    else if a < 0xF5 then
      match r with
      | [] => .truncated
      | b :: r =>
        if !isSecondOfFour a b then .malformed 1 (b :: r) else
        match r with
        | [] => .truncated
        | c :: r =>
          if !isTail c then .malformed 2 (c :: r) else
          match r with
          | [] => .truncated
          | d :: r =>
            if isTail d then
              .char (Char.ofNat
                (a.toNat % 8 * 262144 + tailBits b * 4096 + tailBits c * 64 + tailBits d)) r
            else .malformed 3 (d :: r)
    else .malformed 1 r

theorem length_lt_of_char {bs rest : Bytes} {c : Char} (h : next bs = .char c rest) :
    rest.length < bs.length := by
  unfold next at h
  (repeat' split at h) <;> simp_all <;> omega

theorem length_lt_of_malformed {bs rest : Bytes} {n : Nat} (h : next bs = .malformed n rest) :
    rest.length < bs.length := by
  unfold next at h
  (repeat' split at h) <;> simp_all <;> omega

/-- Reads the characters of `bs`, which begin at `index`, after those of `read`, held backwards. -/
def decodeFrom (index : Nat) (read : List Char) (bs : Bytes) : Except Fault (List Char) :=
  match _h : next bs with
  | .done => .ok read.reverse
  | .char c rest => decodeFrom (index + (bs.length - rest.length)) (c :: read) rest
  | .malformed n _ => .error ⟨index, some n⟩
  | .truncated => .error ⟨index, none⟩
termination_by bs.length
decreasing_by exact length_lt_of_char _h

/-- The characters of which `bs` is the encoding. -/
def decode (bs : Bytes) : Except Fault (List Char) :=
  decodeFrom 0 [] bs

/-- The characters of which `bs` is the encoding, if there are any. -/
def decode? (bs : Bytes) : Option (List Char) :=
  (decode bs).toOption

/-- Reads `bs` after `read`, held backwards, with a replacement character for each fault. -/
def decodeLossyFrom (read : List Char) (bs : Bytes) : List Char :=
  match _h : next bs with
  | .done => read.reverse
  | .char c rest => decodeLossyFrom (c :: read) rest
  | .malformed _ rest => decodeLossyFrom ('\ufffd' :: read) rest
  | .truncated => ('\ufffd' :: read).reverse
termination_by bs.length
decreasing_by
  · exact length_lt_of_char _h
  · exact length_lt_of_malformed _h

/-- The text of `bs` with a replacement character for each fault. -/
def decodeLossy (bs : Bytes) : List Char :=
  decodeLossyFrom [] bs

@[simp] theorem encode_nil : encode [] = [] := rfl

@[simp] theorem encode_append (xs ys : List Char) :
    encode (xs ++ ys) = encode xs ++ encode ys := by
  simp [encode]

end PageBundle.Utf8
