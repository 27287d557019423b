-- SUMMARY: UTF-8: encoding, decoding, and showing bytes that may be none.
import StoreLog.Text.Basic

/-!
# UTF-8

`encode` writes a text as bytes. `decode` reads exactly the well-formed byte
strings, and `decodeLossy` reads every byte string: each longest beginning of a
character that cannot be completed becomes one replacement character.
-/

namespace StoreLog.Utf8

def encode (s : Text) : Bytes :=
  s.flatMap String.utf8EncodeChar

@[simp] theorem encode_nil : encode [] = [] := rfl

@[simp] theorem encode_cons (c : Char) (s : Text) :
    encode (c :: s) = String.utf8EncodeChar c ++ encode s := rfl

@[simp] theorem encode_append (s t : Text) : encode (s ++ t) = encode s ++ encode t := by
  simp [encode]

/-- The number of bytes of a text. -/
def size (s : Text) : Nat :=
  (encode s).length

/-! ## One character -/

def isTail (b : UInt8) : Bool :=
  0x80 ≤ b && b ≤ 0xBF

/-- The six bits that a tail byte carries. -/
def tailBits (b : UInt8) : Nat :=
  b.toNat - 0x80

/-- The bytes that may follow the lead byte of a sequence of three or four. The
narrower ranges exclude overlong forms, surrogates and what lies above U+10FFFF. -/
def isSecond (lead b : UInt8) : Bool :=
  if lead == 0xE0 then 0xA0 ≤ b && b ≤ 0xBF
  else if lead == 0xED then 0x80 ≤ b && b ≤ 0x9F
  else if lead == 0xF0 then 0x90 ≤ b && b ≤ 0xBF
  else if lead == 0xF4 then 0x80 ≤ b && b ≤ 0x8F
  else isTail b

/-- The character that starts with byte `a` and goes on in `s`, if there is one,
and how many bytes of `s` belong to it or to its unfinished beginning. -/
def lead (a : UInt8) (s : Bytes) : Option Char × Nat :=
  if a < 0x80 then (some (Char.ofNat a.toNat), 0)
  else if a < 0xC2 then (none, 0)
  else if a < 0xE0 then
    match s with
    | b :: _ =>
      if isTail b then (some (Char.ofNat ((a.toNat - 0xC0) * 64 + tailBits b)), 1) else (none, 0)
    | [] => (none, 0)
  else if a < 0xF0 then
    match s with
    | b :: c :: _ =>
      if isSecond a b then
        if isTail c then
          (some (Char.ofNat (((a.toNat - 0xE0) * 64 + tailBits b) * 64 + tailBits c)), 2)
        else (none, 1)
      else (none, 0)
    | [b] => (none, if isSecond a b then 1 else 0)
    | [] => (none, 0)
  else if a < 0xF5 then
    match s with
    | b :: c :: d :: _ =>
      if isSecond a b then
        if isTail c then
          if isTail d then
            (some (Char.ofNat
              ((((a.toNat - 0xF0) * 64 + tailBits b) * 64 + tailBits c) * 64 + tailBits d)), 3)
          else (none, 2)
        else (none, 1)
      else (none, 0)
    | [b, c] => (none, if isSecond a b then (if isTail c then 2 else 1) else 0)
    | [b] => (none, if isSecond a b then 1 else 0)
    | [] => (none, 0)
  else (none, 0)

/-! ## Whole byte strings -/

def decode : Bytes → Option Text
  | [] => some []
  | a :: s =>
    match lead a s with
    | (some c, n) => (decode (s.drop n)).map (c :: ·)
    | (none, _) => none
termination_by s => s.length
decreasing_by simp only [List.length_drop, List.length_cons]; omega

def decodeLossy : Bytes → Text
  | [] => []
  | a :: s =>
    let (c, n) := lead a s
    c.getD '\uFFFD' :: decodeLossy (s.drop n)
termination_by s => s.length
decreasing_by simp only [List.length_drop, List.length_cons]; omega

/-- How a path or another byte string is shown in a message. -/
def display (s : Bytes) : String :=
  String.ofList (decodeLossy s)

end StoreLog.Utf8
