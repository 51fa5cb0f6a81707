import PageBundle.Decimal.Nearest

/-!
# Reading decimal numbers

`ofDecimal` is the binary64 number nearest to a decimal. The readers here accept the digits of a
number at the start of a text; what a number may look like as a whole is for the format to say.
-/

namespace PageBundle.Decimal

/-- The number that decimal digits write. -/
def ofDigits (digits : List Char) : Nat :=
  digits.foldl (fun n c => n * 10 + (c.toNat - 48)) 0

/-- The digits at the start of a text, and the rest. -/
def takeDigits (cs : List Char) : List Char × List Char :=
  (cs.takeWhile Char.isDigit, cs.dropWhile Char.isDigit)

/-- The binary64 number nearest to `mantissa * 10 ^ exponent`. Exponents beyond the range of all
numbers are decided without computing the power. -/
def ofDecimal (mantissa : Nat) (exponent : Int) : Float :=
  let magnitude := exponent + (toString mantissa).length
  if mantissa == 0 || magnitude < -400 then 0.0
  else if magnitude > 400 then 1.0 / 0.0
  else if exponent < 0 then nearest mantissa (Nat.pow 10 exponent.natAbs)
  else nearest (mantissa * Nat.pow 10 exponent.natAbs) 1

/-- The number with a sign. -/
def signed (negative : Bool) (x : Float) : Float :=
  if negative then -x else x

/-- A sign at the start of a text: whether it is a minus, and the rest. -/
def takeSign : List Char → Bool × List Char
  | '-' :: cs => (true, cs)
  | '+' :: cs => (false, cs)
  | cs => (false, cs)

/-- The exponent at the end of a number, none standing for zero; nothing if the text is no
exponent. -/
def exponent? : List Char → Option Int
  | [] => some 0
  | e :: cs =>
    let (negative, cs) := takeSign cs
    let (digits, rest) := takeDigits cs
    if (e == 'e' || e == 'E') && !digits.isEmpty && rest.isEmpty then
      some (if negative then -(ofDigits digits : Int) else ofDigits digits)
    else none

/-- The integer that a text writes: digits after an optional sign. -/
def integer? (cs : List Char) : Option Int :=
  let (negative, cs) := takeSign cs
  let (digits, rest) := takeDigits cs
  if digits.isEmpty || !rest.isEmpty then none
  else some (if negative then -(ofDigits digits : Int) else ofDigits digits)

/-- Whether an integer fits 64 bits with a sign. -/
def isWord64 (n : Int) : Bool :=
  -9223372036854775808 ≤ n && n < 9223372036854775808

/-- The binary64 number that a text writes: digits with or without a point and an exponent, or the
name of an infinity or of the number that is none, after an optional sign. -/
def float? (cs : List Char) : Option Float :=
  let (negative, cs) := takeSign cs
  let name := String.ofList (cs.map Char.toLower)
  if name == "inf" || name == "infinity" then some (signed negative (1.0 / 0.0))
  else if name == "nan" then some (0.0 / 0.0)
  else
    let (whole, rest) := takeDigits cs
    let (fraction, rest) := match rest with
      | '.' :: rest => takeDigits rest
      | rest => ([], rest)
    if whole.isEmpty && fraction.isEmpty then none
    else (exponent? rest).map fun e =>
      signed negative (ofDecimal (ofDigits (whole ++ fraction)) (e - fraction.length))

end PageBundle.Decimal
