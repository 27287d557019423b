-- SUMMARY: The shortest decimal that stands for a float, which messages print.
import StoreLog.Text.Basic

/-!
# Shortest decimals

The fewest digits that still tell a float from its neighbours. A positive finite
float is `m * 2 ^ q`, and the reals that round to it form an interval around it,
with its ends if and only if `m` is even. Among the powers of ten, the largest
one with a multiple in this interval gives the digits; of two such multiples the
nearer one is taken. All of it is exact arithmetic on natural numbers.
-/

namespace StoreLog.Decimal

/-- Which of two multiples at the same distance is taken. -/
inductive Tie
  | even
  | up
deriving DecidableEq, Repr

/-- A nonnegative finite float, `mantissa * 2 ^ exponent`. -/
structure Binary where
  mantissa : Nat
  exponent : Int
deriving DecidableEq, Repr

namespace Binary

/-- The least mantissa of a float that is not subnormal, two to the power of 52. -/
def leastNormal : Nat := 0x10000000000000

def ofBits (bits : UInt64) : Binary :=
  let biased := (bits >>> 52).toNat % 2048
  let fraction := bits.toNat % leastNormal
  if biased = 0 then ⟨fraction, -1074⟩ else ⟨leastNormal + fraction, biased - 1075⟩

/-- In units of a quarter of the last place: the lower end of the interval of the
reals that round to the float. Below a power of two the floats lie closer. -/
def low (b : Binary) : Nat :=
  if b.mantissa = leastNormal ∧ -1074 < b.exponent then 4 * b.mantissa - 1 else 4 * b.mantissa - 2

def high (b : Binary) : Nat :=
  4 * b.mantissa + 2

/-- Numerator and denominator of a quarter of the last place over `10 ^ t`. -/
def quarterOver (b : Binary) (t : Int) : Nat × Nat :=
  let q := b.exponent - 2
  (Nat.pow 2 q.toNat * Nat.pow 10 (-t).toNat, Nat.pow 2 (-q).toNat * Nat.pow 10 t.toNat)

/-- The multiple `c * 10 ^ t` rounds to the float. -/
def admits (b : Binary) (t : Int) (c : Nat) : Bool :=
  let (num, den) := b.quarterOver t
  if b.mantissa % 2 = 0 then b.low * num ≤ c * den && c * den ≤ b.high * num
  else b.low * num < c * den && c * den < b.high * num

/-- The multiplier of the multiple of `10 ^ t` that rounds to the float and is
nearest to it. -/
def multipleAt (b : Binary) (tie : Tie) (t : Int) : Option Nat :=
  let (num, den) := b.quarterOver t
  let below := 4 * b.mantissa * num / den
  let twice := 2 * (4 * b.mantissa * num % den)
  let above := below + 1
  let down := 0 < below && b.admits t below
  let up := b.admits t above
  if down && up then
    if twice < den then some below
    else if den < twice then some above
    else if tie = .even ∧ below % 2 = 0 then some below
    else some above
  else if down then some below
  else if up then some above
  else none

/-- Try the powers of ten downwards from `10 ^ t`. -/
def search (b : Binary) (tie : Tie) (t : Int) : Nat → Nat × Int
  | 0 => (b.mantissa, b.exponent)
  | n + 1 =>
    match b.multipleAt tie t with
    | some c => (c, t)
    | none => search b tie (t - 1) n

/-- Digits `c` and exponent `t` of the shortest decimal `c * 10 ^ t`. No float
needs a power of ten above `10 ^ 309` or below `10 ^ -1074`. -/
def shortest (b : Binary) (tie : Tie) : Nat × Int :=
  b.search tie 309 1400

end Binary

/-! ## Layouts -/

/-- How a float is written: `isPositional p` says whether digits whose decimal
point comes after the first `p` of them are written without an exponent. -/
structure Layout where
  tie : Tie
  isPositional : Int → Bool

namespace Layout

/-- Digits with the decimal point after the first `point` of them, and at least
one digit on each side of it. -/
def positional (digits : Text) (point : Int) : Text :=
  if point ≤ 0 then ['0', '.'] ++ List.replicate (-point).toNat '0' ++ digits
  else if digits.length ≤ point then
    digits ++ List.replicate (point.toNat - digits.length) '0' ++ ['.', '0']
  else digits.take point.toNat ++ ['.'] ++ digits.drop point.toNat

/-- One digit, the others behind the decimal point, and the exponent with its sign. -/
def scientific (digits : Text) (point : Int) : Text :=
  let fraction := digits.drop 1
  let exponent := point - 1
  digits.take 1 ++ (if fraction.isEmpty then [] else '.' :: fraction) ++ ['e'] ++
    (if exponent < 0 then ['-'] else ['+']) ++ Nat.toDigits 10 exponent.natAbs

def magnitude (l : Layout) (b : Binary) : Text :=
  if b.mantissa = 0 then ['0', '.', '0']
  else
    let (c, t) := b.shortest l.tie
    let digits := Nat.toDigits 10 c
    let point := digits.length + t
    if l.isPositional point then positional digits point else scientific digits point

def write (l : Layout) (x : Float) : Text :=
  let bits := x.toBits
  let sign : Text := if bits >>> 63 = 0 then [] else ['-']
  if x.isNaN then ['N', 'a', 'N']
  else if x.isInf then sign ++ ['i', 'n', 'f']
  else sign ++ l.magnitude (Binary.ofBits bits)

end Layout

end StoreLog.Decimal
