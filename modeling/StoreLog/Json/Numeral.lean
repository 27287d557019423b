-- SUMMARY: The spelling of JSON numbers, and the numbers that they denote.
import StoreLog.Json.Fault
import StoreLog.Json.Value
import StoreLog.Text.Taken

/-!
# Numerals

The spelling of a JSON number: digits without a leading zero, then perhaps a
fraction, then perhaps an exponent. `Numeral.read` takes a numeral off the front
of a text; `Numeral.toNumber` says which number it denotes.
-/

namespace StoreLog.Json

structure Numeral where
  negative : Bool
  whole : Text
  /-- The digits after the point; empty if there is no point. -/
  fraction : Text
  /-- The digits of the exponent, and whether a minus stands before them. -/
  exponent : Option (Bool × Text)
deriving DecidableEq, Repr

namespace Numeral

def digit (c : Char) : Nat :=
  c.toNat - 48

/-! ## Which number -/

/-- What significands stay below, two to the power of 64. -/
def significandBound : Nat := 0x10000000000000000

/-- What exponents stay below, two to the power of 31. -/
def exponentBound : Nat := 0x80000000

/-- The greatest magnitude of a negative integer, two to the power of 63. -/
def maxNegative : Nat := 0x8000000000000000

/-- Append digits to a significand as long as it stays below the bound; with the
number of digits that are left over. -/
def absorb (significand : Nat) : Text → Nat × Nat
  | [] => (significand, 0)
  | c :: s =>
    let next := 10 * significand + digit c
    if next < significandBound then absorb next s else (significand, s.length + 1)

/-- The value of the digits of an exponent. If it reaches the bound, the number of
digits after the one at which it does. -/
def exponentValue (value : Nat) : Text → Except Nat Nat
  | [] => .ok value
  | c :: s =>
    let next := 10 * value + digit c
    if next < exponentBound then exponentValue next s else .error s.length

def integer (negative : Bool) (magnitude : Nat) : Number :=
  if negative then
    if magnitude = 0 ∨ maxNegative < magnitude then .decimal ⟨true, magnitude, 0⟩
    else .integer (-magnitude)
  else .integer magnitude

/-- A decimal is a number if its scaled float is finite. -/
def finite (d : Decimal) : Except Nat Number :=
  if d.scaled.isSome then .ok (.decimal d) else .error 0

/-- The number that a numeral denotes. If it is out of range, how many of its
digits need not be read to see that. -/
def toNumber (n : Numeral) : Except Nat Number :=
  let (whole, dropped) := absorb 0 n.whole
  let (significand, ignored) := absorb whole n.fraction
  let point : Int := dropped - (n.fraction.length - ignored : Nat)
  match n.exponent with
  | none =>
    if n.fraction.isEmpty ∧ dropped = 0 then .ok (integer n.negative significand)
    else finite ⟨n.negative, significand, point⟩
  | some (minus, digits) =>
    match exponentValue 0 digits with
    | .ok e => finite ⟨n.negative, significand, if minus then point - e else point + e⟩
    | .error left =>
      if significand ≠ 0 ∧ minus = false then .error left
      else .ok (.decimal ⟨n.negative, 0, 0⟩)

/-! ## The spelling -/

def readWhole : (s : Text) → Except Fault (Taken s Text)
  | [] => .error (.atFront .endInValue [])
  | c :: s =>
    if c = '0' then
      if s.head?.any Char.isDigit then .error (.atFront .invalidNumber s)
      else .ok ⟨[c], s, length_lt_cons _ _⟩
    else if c.isDigit then
      .ok ⟨c :: s.takeWhile Char.isDigit, s.dropWhile Char.isDigit,
        Nat.lt_succ_of_le (length_dropWhile_le ..)⟩
    else .error (.atFront .invalidNumber (c :: s))

def readFraction : (s : Text) → Except Fault (Left s Text)
  | '.' :: s =>
    if s.head?.any Char.isDigit then
      .ok ⟨(s.takeWhile Char.isDigit, s.dropWhile Char.isDigit),
        Nat.le_succ_of_le (length_dropWhile_le ..)⟩
    else if s.isEmpty then .error (.atFront .endInValue [])
    else .error (.atFront .invalidNumber s)
  | s => .ok ⟨([], s), Nat.le_refl _⟩

def readSign : (s : Text) → Left s Bool
  | '+' :: s => ⟨(false, s), by simp⟩
  | '-' :: s => ⟨(true, s), by simp⟩
  | s => ⟨(false, s), Nat.le_refl _⟩

def readExponent : (s : Text) → Except Fault (Left s (Option (Bool × Text)))
  | [] => .ok ⟨(none, []), Nat.le_refl _⟩
  | c :: s =>
    if c = 'e' ∨ c = 'E' then
      let ⟨(minus, r), h⟩ := readSign s
      if r.head?.any Char.isDigit then
        .ok ⟨(some (minus, r.takeWhile Char.isDigit), r.dropWhile Char.isDigit),
          Nat.le_trans (length_dropWhile_le ..) (Nat.le_succ_of_le h)⟩
      else if r.isEmpty then .error (.atFront .endInValue [])
      else .error (.atFront .invalidNumber r)
    else .ok ⟨(none, c :: s), Nat.le_refl _⟩

/-- Read what follows the sign of a numeral. -/
def readUnsigned (negative : Bool) (s : Text) : Except Fault (Taken s Numeral) :=
  match readWhole s with
  | .error e => .error e
  | .ok ⟨whole, r, h⟩ =>
    match readFraction r with
    | .error e => .error e
    | .ok ⟨(fraction, r'), h'⟩ =>
      match readExponent r' with
      | .error e => .error e
      | .ok ⟨(exponent, r''), h''⟩ =>
        .ok ⟨⟨negative, whole, fraction, exponent⟩, r'',
          Nat.lt_of_le_of_lt h'' (Nat.lt_of_le_of_lt h' h)⟩

def read : (s : Text) → Except Fault (Taken s Numeral)
  | '-' :: s => (readUnsigned true s).map (·.within (length_le_cons _ _))
  | s => readUnsigned false s

end Numeral

/-- Read a number off the front. -/
def readNumber (s : Text) : Except Fault (Taken s Number) :=
  match Numeral.read s with
  | .error e => .error e
  | .ok ⟨numeral, r, h⟩ =>
    match numeral.toNumber with
    | .ok n => .ok ⟨n, r, h⟩
    | .error left => .error ⟨.numberOutOfRange, left + Utf8.size r⟩

end StoreLog.Json
