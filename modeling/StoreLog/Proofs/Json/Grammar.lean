-- SUMMARY: The grammar of JSON texts as relations, without a reader.
import StoreLog.Json.Reader

/-!
# The grammar of JSON

Which texts are JSON texts and which values they denote, said without a reader: the pieces
that a text consists of, from digits up to values with blanks around them. What is special
to this library is that arrays and objects nest to a limited depth, that escaped surrogates
come in pairs, and that a number is in range. Which numerals are in range, and the number
that such a one denotes, is not a matter of the text and is left to `Numeral.toNumber`.
-/

namespace StoreLog.Json

def Blanks (s : Text) : Prop :=
  ∀ c ∈ s, c = ' ' ∨ c = '\n' ∨ c = '\t' ∨ c = '\r'

/-! ## Numbers -/

/-- One digit or more. -/
def Digits (s : Text) : Prop :=
  s ≠ [] ∧ ∀ c ∈ s, c.isDigit = true

/-- Digits without a leading zero. -/
inductive IsWhole : Text → Prop
  | zero : IsWhole ['0']
  | digits {c : Char} {s : Text} (hc : c ≠ '0') (h : Digits (c :: s)) : IsWhole (c :: s)

/-- A fraction and its digits. -/
inductive IsFraction : Text → Text → Prop
  | absent : IsFraction [] []
  | present {s : Text} (h : Digits s) : IsFraction ('.' :: s) s

/-- A sign before an exponent, and whether it is a minus. -/
inductive IsSign : Text → Bool → Prop
  | absent : IsSign [] false
  | plus : IsSign ['+'] false
  | minus : IsSign ['-'] true

/-- An exponent, and its sign and digits. -/
inductive IsExponent : Text → Option (Bool × Text) → Prop
  | absent : IsExponent [] none
  | present {c : Char} {s t : Text} {minus : Bool} (hc : c = 'e' ∨ c = 'E') (hs : IsSign s minus)
      (ht : Digits t) : IsExponent (c :: (s ++ t)) (some (minus, t))

inductive IsUnsigned (negative : Bool) : Text → Numeral → Prop
  | mk {w f e fraction : Text} {exponent : Option (Bool × Text)} (hw : IsWhole w)
      (hf : IsFraction f fraction) (he : IsExponent e exponent) :
      IsUnsigned negative (w ++ (f ++ e)) ⟨negative, w, fraction, exponent⟩

inductive IsNumeral : Text → Numeral → Prop
  | positive {s : Text} {n : Numeral} (h : IsUnsigned false s n) : IsNumeral s n
  | negative {s : Text} {n : Numeral} (h : IsUnsigned true s n) : IsNumeral ('-' :: s) n

/-! ## Strings -/

/-- A digit in base sixteen, in either case, and its value. -/
inductive IsHexDigit : Char → Nat → Prop
  | digit {c : Char} (h : '0' ≤ c ∧ c ≤ '9') : IsHexDigit c (c.toNat - '0'.toNat)
  | lower {c : Char} (h : 'a' ≤ c ∧ c ≤ 'f') : IsHexDigit c (10 + (c.toNat - 'a'.toNat))
  | upper {c : Char} (h : 'A' ≤ c ∧ c ≤ 'F') : IsHexDigit c (10 + (c.toNat - 'A'.toNat))

/-- Four digits in base sixteen, and the number they write. -/
inductive IsUnit : Text → Nat → Prop
  | mk {a b c d : Char} {i j k l : Nat} (ha : IsHexDigit a i) (hb : IsHexDigit b j)
      (hc : IsHexDigit c k) (hd : IsHexDigit d l) :
      IsUnit [a, b, c, d] (16 * (16 * (16 * i + j) + k) + l)

/-- The character that a surrogate pair stands for. -/
@[irreducible] def charOfPair (high low : Nat) : Char :=
  Char.ofNat (0x10000 + (high - 0xD800) * 0x400 + (low - 0xDC00))

/-- A character that escapes another one, and that one. -/
inductive IsShort : Char → Char → Prop
  | quote : IsShort '"' '"'
  | backslash : IsShort '\\' '\\'
  | slash : IsShort '/' '/'
  | backspace : IsShort 'b' '\x08'
  | page : IsShort 'f' '\x0c'
  | feed : IsShort 'n' '\n'
  | carriage : IsShort 'r' '\r'
  | tab : IsShort 't' '\t'

/-- What follows a backslash, and the character it stands for. -/
inductive IsEscape : Text → Char → Prop
  | short {c d : Char} (h : IsShort c d) : IsEscape [c] d
  | unit {s : Text} {n : Nat} (h : IsUnit s n) (hn : n < 0xD800 ∨ 0xDFFF < n) :
      IsEscape ('u' :: s) (Char.ofNat n)
  | pair {s t : Text} {high low : Nat} (hs : IsUnit s high) (ht : IsUnit t low)
      (hhigh : 0xD800 ≤ high ∧ high ≤ 0xDBFF) (hlow : 0xDC00 ≤ low ∧ low ≤ 0xDFFF) :
      IsEscape ('u' :: (s ++ '\\' :: 'u' :: t)) (charOfPair high low)

/-- What stands between quotes, and the text it denotes. -/
inductive IsContent : Text → Text → Prop
  | nil : IsContent [] []
  | plain {c : Char} {s t : Text} (hq : c ≠ '"') (hb : c ≠ '\\') (hc : 0x20 ≤ c.toNat)
      (h : IsContent s t) : IsContent (c :: s) (c :: t)
  | escape {e s t : Text} {c : Char} (he : IsEscape e c) (h : IsContent s t) :
      IsContent ('\\' :: (e ++ s)) (c :: t)

inductive IsString : Text → Text → Prop
  | mk {s t : Text} (h : IsContent s t) : IsString ('"' :: (s ++ ['"'])) t

/-! ## Lists -/

section

variable {α : Type}

/-- Things with a comma between each and the next. -/
inductive Separated (one : Text → α → Prop) : Text → List α → Prop
  | single {s : Text} {x : α} (h : one s x) : Separated one s [x]
  | cons {s t : Text} {x : α} {xs : List α} (h : one s x) (ht : Separated one t xs) :
      Separated one (s ++ ',' :: t) (x :: xs)

/-- What stands between brackets: blanks, or things with commas between them. -/
inductive Listed (one : Text → α → Prop) : Text → List α → Prop
  | empty {s : Text} (h : Blanks s) : Listed one s []
  | things {s : Text} {xs : List α} (h : Separated one s xs) : Listed one s xs

end

/-! ## Values -/

/-- A value without another one in it. -/
inductive IsScalar : Text → Value → Prop
  | null : IsScalar ['n', 'u', 'l', 'l'] .null
  | true : IsScalar ['t', 'r', 'u', 'e'] (.boolean Bool.true)
  | false : IsScalar ['f', 'a', 'l', 's', 'e'] (.boolean Bool.false)
  | number {s : Text} {n : Numeral} {k : Number} (h : IsNumeral s n) (hk : n.toNumber = .ok k) :
      IsScalar s (.number k)
  | string {s t : Text} (h : IsString s t) : IsScalar s (.string t)

/-- A value with blanks around it. -/
inductive Padded (item : Text → Value → Prop) : Text → Value → Prop
  | mk {a s b : Text} {v : Value} (ha : Blanks a) (h : item s v) (hb : Blanks b) :
      Padded item (a ++ (s ++ b)) v

/-- A member of an object, with blanks around each of its parts. -/
inductive IsMember (item : Text → Value → Prop) : Text → Text × Value → Prop
  | mk {a s b t name : Text} {v : Value} (ha : Blanks a) (hs : IsString s name) (hb : Blanks b)
      (ht : Padded item t v) : IsMember item (a ++ (s ++ (b ++ ':' :: t))) (name, v)

inductive IsNested (item : Text → Value → Prop) : Text → Value → Prop
  | array {s : Text} {vs : List Value} (h : Listed (Padded item) s vs) :
      IsNested item ('[' :: (s ++ [']'])) (.array vs)
  | object {s : Text} {ms : List (Text × Value)} (h : Listed (IsMember item) s ms) :
      IsNested item ('\x7b' :: (s ++ ['\x7d'])) (.object ms)

/-- A value with at most `depth` arrays and objects around each other. -/
def IsValue : (depth : Nat) → Text → Value → Prop
  | 0 => IsScalar
  | depth + 1 => fun s v => IsScalar s v ∨ IsNested (IsValue depth) s v

/-- A JSON text and the value it denotes. -/
def IsText (s : Text) (v : Value) : Prop :=
  Padded (IsValue maxDepth) s v

end StoreLog.Json
