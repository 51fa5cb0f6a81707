import PageBundle.Bytes

/-!
# Hexadecimal text

Each byte is written as two small hexadecimal digits, the high half first. Digits of either case are
read.
-/

namespace PageBundle.Hex

/-- The digit for a number below sixteen. -/
def digit (n : Nat) : Char :=
  if n < 10 then Char.ofNat (48 + n) else Char.ofNat (87 + n)

/-- The two digits of a byte. -/
def ofByte (b : UInt8) : List Char :=
  [digit (b.toNat / 16), digit (b.toNat % 16)]

/-- The digits of some bytes. -/
def ofBytes (bs : Bytes) : String :=
  String.ofList (bs.flatMap ofByte)

/-- The number of a digit. -/
def digitValue? (c : Char) : Option Nat :=
  if c.isDigit then some (c.toNat - 48)
  else if 'a' ≤ c.toLower && c.toLower ≤ 'f' then some (c.toLower.toNat - 87)
  else none

/-- The number that `count` more digits after those of `value` write, and the rest. -/
def numberFrom? : Nat → Nat → List Char → Option (Nat × List Char)
  | 0, value, cs => some (value, cs)
  | count + 1, value, c :: cs => do numberFrom? count (value * 16 + (← digitValue? c)) cs
  | _ + 1, _, [] => none

/-- The number that the first `count` characters of a text write, and the rest. -/
def number? (count : Nat) (cs : List Char) : Option (Nat × List Char) :=
  numberFrom? count 0 cs

/-- The character whose code point the first `count` characters of a text write, and the rest. -/
def char? (count : Nat) (cs : List Char) : Option (Char × List Char) := do
  let (n, rest) ← number? count cs
  if h : n.isValidChar then some (Char.ofNatAux n h, rest) else none

end PageBundle.Hex
