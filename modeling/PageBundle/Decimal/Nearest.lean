/-!
# Rounding to binary64

`nearest` is the binary64 number nearest to a fraction, a tie going to the number whose last digit
is even. It is found in exact arithmetic: the fraction is divided by the distance of the numbers of
its size, and the quotient is rounded (`roundDiv`), which moves it by half a unit at most.
-/

namespace PageBundle.Decimal

/-- The integer nearest to `n / d`; a tie goes to the even one. -/
def roundDiv (n d : Nat) : Nat :=
  if 2 * (n % d) > d || (2 * (n % d) == d && n / d % 2 == 1) then n / d + 1 else n / d

/-- The fraction `n / d` divided by a power of two. -/
def shiftFraction (n d : Nat) (exponent : Int) : Nat × Nat :=
  if exponent < 0 then (n <<< exponent.natAbs, d) else (n, d <<< exponent.natAbs)

/-- The power of two that tells the distance of the numbers near `n / d`, which is not zero: they
have 53 binary digits, but the power is never below the one for the least numbers. -/
def unitExponent (n d : Nat) : Int :=
  let size : Int := (n.log2 : Int) - d.log2
  let (n, d) := shiftFraction n d size
  max (if d ≤ n then size - 52 else size - 53) (-1074)

/-- The bits of positive infinity. -/
def infinityBits : Nat := 2047 <<< 52

/-- The bits of the binary64 number nearest to `n / d`. Numbers in order have bits in order, so that
a quotient that is rounded up to the next power of two needs no care. -/
def nearestBits (n d : Nat) : Nat :=
  if n == 0 then 0
  else
    let exponent := unitExponent n d
    let (n, d) := shiftFraction n d exponent
    min (((exponent + 1074).natAbs <<< 52) + roundDiv n d) infinityBits

/-- The binary64 number nearest to `n / d`. -/
def nearest (n d : Nat) : Float :=
  Float.ofBits (UInt64.ofNat (nearestBits n d))

end PageBundle.Decimal
