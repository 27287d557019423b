-- SUMMARY: Decimals as a significand and an exponent, and the floats that they stand for.
/-!
# Decimals

A decimal is a sign, a significand and a power of ten, as a numeral spells it.
Two readings of it as a floating-point number are used: the nearest one, and the
one that scales the significand's own float by floats that are powers of ten.
The two differ in the last places and in where they overflow.
-/

namespace StoreLog

structure Decimal where
  negative : Bool
  significand : Nat
  exponent : Int
deriving DecidableEq, Repr

namespace Decimal

def signed (d : Decimal) (x : Float) : Float :=
  if d.negative then -x else x

/-! ## The nearest float -/

/-- The float nearest to the decimal, which is infinite above the range. What is
certainly too large or too small is told by the number of digits, so that no
power of ten beyond the range is ever formed. -/
def nearest (d : Decimal) : Float :=
  let places := (Nat.toDigits 10 d.significand).length + d.exponent
  d.signed <|
    if d.significand = 0 then 0
    else if 310 < places then 1 / 0
    else if places < -330 then 0
    else Float.ofScientific d.significand (d.exponent < 0) d.exponent.natAbs

/-! ## The scaled float -/

/-- The float nearest to a power of ten, for exponents up to 308. -/
def powerOfTen (n : Nat) : Float :=
  Float.ofScientific 1 false n

/-- Divide by powers of ten, by no more than `10 ^ 308` at a time. -/
def scaleDown (x : Float) (n : Nat) : Float :=
  if n ≤ 308 then x / powerOfTen n
  else if x == 0 then x
  else scaleDown (x / powerOfTen 308) (n - 308)
termination_by n

/-- The significand as a float, times or divided by a power of ten; `none` when
the product is infinite. The significand is taken to be below `2 ^ 64`. -/
def scaled (d : Decimal) : Option Float :=
  let x := Float.ofScientific d.significand false 0
  if d.exponent < 0 then some (d.signed (scaleDown x d.exponent.natAbs))
  else if d.significand = 0 then some (d.signed 0)
  else if 308 < d.exponent then none
  else
    let y := x * powerOfTen d.exponent.natAbs
    if y.isInf then none else some (d.signed y)

end Decimal

end StoreLog
