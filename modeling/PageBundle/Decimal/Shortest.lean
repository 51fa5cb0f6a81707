/-!
# The shortest decimal that reads back

A finite positive binary64 number is `mantissa * 2 ^ exponent`. The reals that round to it form an
interval, which contains its ends exactly if the mantissa is even. Of the decimals in the interval
with the fewest digits the nearest one is written, the greater one of two that are as near. It is
written positionally and without an exponent.
-/

namespace PageBundle.Decimal

/-- The reals that round to a number, as fractions over one denominator. -/
structure Interval where
  low : Nat
  value : Nat
  high : Nat
  denominator : Nat
  closed : Bool

/-- The interval of `mantissa * 2 ^ exponent`; below a power of two the gap is half as wide unless
the number is the least of its kind. -/
def Interval.of (mantissa : Nat) (exponent : Int) : Interval :=
  let below := if mantissa == 1 <<< 52 && exponent > -1074 then 1 else 2
  let scale := if exponent < 0 then 1 else 1 <<< exponent.natAbs
  let denominator := if exponent < 0 then 4 <<< exponent.natAbs else 4
  ⟨(4 * mantissa - below) * scale, 4 * mantissa * scale, (4 * mantissa + 2) * scale, denominator,
    mantissa % 2 == 0⟩

/-- Whether `digits * 10 ^ power` lies in the interval. -/
def Interval.contains (i : Interval) (digits : Nat) (power : Int) : Bool :=
  let x :=
    if power < 0 then digits * i.denominator else digits * Nat.pow 10 power.natAbs * i.denominator
  let unit := if power < 0 then Nat.pow 10 power.natAbs else 1
  if i.closed then i.low * unit ≤ x && x ≤ i.high * unit else i.low * unit < x && x < i.high * unit

/-- The neighbours of the value among the multiples of `10 ^ power`: the multiple below it, and
whether the one above is as near or nearer. -/
def Interval.below (i : Interval) (power : Int) : Nat × Bool :=
  let x := if power < 0 then i.value * Nat.pow 10 power.natAbs else i.value
  let unit := if power < 0 then i.denominator else i.denominator * Nat.pow 10 power.natAbs
  (x / unit, 2 * (x % unit) ≥ unit)

/-- The nearest multiple of `10 ^ power` in the interval. -/
def Interval.nearest? (i : Interval) (power : Int) : Option Nat :=
  let (d, up) := i.below power
  let candidates := if up then [d + 1, d] else [d, d + 1]
  candidates.find? (i.contains · power)

/-- The place of the value's first digit. -/
def Interval.leadingPlace (i : Interval) : Int :=
  let guess : Int := ((toString i.value).length : Int) - (toString i.denominator).length
  if 1 ≤ (i.below guess).1 then guess else guess - 1

/-- Digits and a power of ten: the shortest decimal in the interval. -/
def Interval.shortest (i : Interval) : Nat × Int :=
  let place := i.leadingPlace
  let tries := (List.range 18).filterMap fun (k : Nat) =>
    (i.nearest? (place - (k : Int))).map fun d => (d, place - (k : Int))
  tries.headD (0, 0)

/-- The decimal `digits * 10 ^ power` written without an exponent. -/
def positional (digits : Nat) (power : Int) : String :=
  let text := toString digits
  if 0 ≤ power then text ++ String.ofList (List.replicate power.natAbs '0')
  else
    let places := power.natAbs
    let padded := List.replicate (places + 1 - text.length) '0' ++ text.toList
    let whole := padded.take (padded.length - places)
    let fraction := dropZeros (padded.drop (padded.length - places))
    String.ofList (if fraction.isEmpty then whole else whole ++ '.' :: fraction)
where
  /-- The digits without the zeros at their end. -/
  dropZeros (cs : List Char) : List Char :=
    (cs.reverse.dropWhile (· == '0')).reverse

/-- The text of a binary64 number. -/
def text (x : Float) : String :=
  let bits : Nat := x.toBits.toNat
  let sign := if bits >>> 63 == 1 then "-" else ""
  let exponent : Nat := (bits >>> 52) % (1 <<< 11)
  let fraction : Nat := bits % (1 <<< 52)
  if exponent == 2047 then if fraction == 0 then sign ++ "inf" else "NaN"
  else if exponent == 0 && fraction == 0 then sign ++ "0"
  else
    let interval := if exponent == 0 then Interval.of fraction (-1074)
      else Interval.of ((1 <<< 52) + fraction) ((exponent : Int) - 1075)
    let (digits, power) := interval.shortest
    sign ++ positional digits power

end PageBundle.Decimal
