-- SUMMARY: Reading of TOML values without others in them.
import StoreLog.Decimal.Basic
import StoreLog.Toml.Node

/-!
# TOML scalars

The values that are written without quotes or brackets: integers, floats,
booleans, dates and times. A scalar is judged as a whole, once all characters
that could belong to it have been collected.
-/

namespace StoreLog.Toml

/-- The characters of which scalars consist. -/
def isScalarChar (c : Char) : Bool :=
  c.isAlphanum || c == '+' || c == '-' || c == '_' || c == '.' || c == ':'

/-! ## Digits -/

/-- Digits with single underscores between them; the digits without those. -/
def grouped (isDigit : Char → Bool) : Text → Option Text
  | [] => none
  | [c] => if isDigit c then some [c] else none
  | c :: '_' :: s => if isDigit c then (grouped isDigit s).map (c :: ·) else none
  | c :: d :: s => if isDigit c then (grouped isDigit (d :: s)).map (c :: ·) else none

/-- A sign that may be absent; true for a minus. -/
def signed : Text → Bool × Text
  | '+' :: s => (false, s)
  | '-' :: s => (true, s)
  | s => (false, s)

/-- Decimal digits without a leading zero. -/
def plainDigits (s : Text) : Option Text :=
  match grouped Char.isDigit s with
  | some ('0' :: _ :: _) => none
  | r => r

/-! ## Numbers -/

/-- What integers stay below, two to the power of 63. -/
def integerBound : Nat := 0x8000000000000000

/-- An integer that fits in 64 bits with its sign. -/
def integerOf (minus : Bool) (magnitude : Nat) : Option Node :=
  if minus then if magnitude ≤ integerBound then some (.integer (-magnitude)) else none
  else if magnitude < integerBound then some (.integer magnitude) else none

def integer? (s : Text) : Option Node :=
  match s with
  | '0' :: 'x' :: s => (grouped (Text.isDigitOf 16) s).bind fun ds => integerOf false (Text.valueOf 16 ds)
  | '0' :: 'o' :: s => (grouped (Text.isDigitOf 8) s).bind fun ds => integerOf false (Text.valueOf 8 ds)
  | '0' :: 'b' :: s => (grouped (Text.isDigitOf 2) s).bind fun ds => integerOf false (Text.valueOf 2 ds)
  | s =>
    let (minus, s) := signed s
    (plainDigits s).bind fun ds => integerOf minus (Text.valueOf 10 ds)

/-- The exponent after its letter. -/
def exponent? (s : Text) : Option Int :=
  let (minus, s) := signed s
  (grouped Char.isDigit s).map fun ds =>
    if minus then -(Text.valueOf 10 ds : Int) else Text.valueOf 10 ds

def isExponentMark (c : Char) : Bool :=
  c == 'e' || c == 'E'

/-- A number with a fraction, an exponent or both. One that is above the range is
refused; one below it stands for minus infinity. -/
def decimal? (s : Text) : Option Node := do
  let (minus, s) := signed s
  let mantissa := s.takeWhile (!isExponentMark ·)
  let whole := mantissa.takeWhile (· != '.')
  let wholeDigits ← plainDigits whole
  let fractionDigits ←
    match mantissa.dropWhile (· != '.') with
    | [] => some []
    | _ :: fraction => grouped Char.isDigit fraction
  let exponent ←
    match s.dropWhile (!isExponentMark ·) with
    | [] => if fractionDigits.isEmpty then none else some 0
    | _ :: e => exponent? e
  let d : Decimal :=
    ⟨minus, Text.valueOf 10 (wholeDigits ++ fractionDigits), exponent - fractionDigits.length⟩
  if d.nearest.isInf && !minus then none else some (.float d.nearest)

def special? (s : Text) : Option Node :=
  let (minus, s) := signed s
  let x : Option Float :=
    if s = ['i', 'n', 'f'] then some (1 / 0)
    else if s = ['n', 'a', 'n'] then some (0 / 0)
    else none
  x.map fun x => .float (if minus then -x else x)

/-! ## Dates and times -/

/-- Two digits, and what follows them. -/
def twoDigits : Text → Option (Nat × Text)
  | a :: b :: s =>
    if a.isDigit && b.isDigit then some (Text.valueOf 10 [a, b], s) else none
  | _ => none

/-- Two digits whose value lies between two bounds. -/
def twoDigitsWithin (low high : Nat) (s : Text) : Option (Nat × Text) :=
  (twoDigits s).filter fun (n, _) => low ≤ n && n ≤ high

def expect (c : Char) : Text → Option Text
  | d :: s => if d = c then some s else none
  | [] => none

def isLeapYear (year : Nat) : Bool :=
  year % 4 == 0 && (year % 100 != 0 || year % 400 == 0)

def daysIn (year month : Nat) : Nat :=
  if month = 2 then (if isLeapYear year then 29 else 28)
  else if month = 4 ∨ month = 6 ∨ month = 9 ∨ month = 11 then 30
  else 31

/-- What follows a date. -/
def date? (s : Text) : Option Text := do
  let (century, s) ← twoDigits s
  let (year, s) ← twoDigits s
  let (month, s) ← twoDigitsWithin 1 12 (← expect '-' s)
  let (_, s) ← twoDigitsWithin 1 (daysIn (100 * century + year) month) (← expect '-' s)
  return s

/-- What follows a time of day. A minute may have a sixty-first second. -/
def time? (s : Text) : Option Text := do
  let (_, s) ← twoDigitsWithin 0 23 s
  let (_, s) ← twoDigitsWithin 0 59 (← expect ':' s)
  let (_, s) ← twoDigitsWithin 0 60 (← expect ':' s)
  match s with
  | '.' :: s => if s.head?.any Char.isDigit then some (s.dropWhile Char.isDigit) else none
  | s => some s

/-- A distance from universal time, and nothing else. -/
def isOffset (s : Text) : Bool :=
  match s with
  | ['Z'] | ['z'] => true
  | c :: s =>
    (c == '+' || c == '-') &&
      (do
        let (_, s) ← twoDigitsWithin 0 23 s
        let (_, s) ← twoDigitsWithin 0 59 (← expect ':' s)
        return s) == some []
  | [] => false

/-- A time of day with a distance from universal time or without. -/
def isTimeWithOffset (s : Text) : Bool :=
  match time? s with
  | some [] => true
  | some s => isOffset s
  | none => false

def isDate (s : Text) : Bool :=
  date? s == some []

def isDateTime (s : Text) : Bool :=
  time? s == some [] ||
    match date? s with
    | some [] => true
    | some (c :: s) => (c == 'T' || c == 't') && isTimeWithOffset s
    | none => false

/-! ## All scalars -/

def scalar? (s : Text) : Option Node :=
  if s = ['t', 'r', 'u', 'e'] then some (.boolean true)
  else if s = ['f', 'a', 'l', 's', 'e'] then some (.boolean false)
  else if isDateTime s then some .dateTime
  else integer? s <|> decimal? s <|> special? s

end StoreLog.Toml
