-- SUMMARY: Writing and reading of JSON strings, with their escapes.
import StoreLog.Json.Fault
import StoreLog.Text.Taken

/-!
# JSON strings

Between its quotes a string holds its characters, and escapes for those that may
not stand there. `encode` escapes no more than it has to; `readQuoted` reads
every spelling, and refuses an escaped surrogate that is not half of a pair.
-/

namespace StoreLog.Json

/-! ## Writing -/

/-- The digit of `n` in base sixteen, in lower case. -/
def hexDigit (n : Nat) : Char :=
  Nat.digitChar n

/-- A control character has a letter of its own or is written by its number. -/
def encodeChar (c : Char) : Text :=
  if c = '"' then ['\\', '"']
  else if c = '\\' then ['\\', '\\']
  else if c = '\x08' then ['\\', 'b']
  else if c = '\x0c' then ['\\', 'f']
  else if c = '\n' then ['\\', 'n']
  else if c = '\r' then ['\\', 'r']
  else if c = '\t' then ['\\', 't']
  else if c.toNat < 0x20 then
    ['\\', 'u', '0', '0', hexDigit (c.toNat / 16), hexDigit (c.toNat % 16)]
  else [c]

def encode (s : Text) : Text :=
  ['"'] ++ s.flatMap encodeChar ++ ['"']

/-! ## Escapes -/

/-- The number that digits in base sixteen write, if they are all such digits. -/
def hexNumber? (s : Text) : Option Nat :=
  if s.all (Text.isDigitOf 16) then some (Text.valueOf 16 s) else none

/-- Read the four digits after the letter `u`. They are taken as bytes, so a
character of several bytes among them may be cut. -/
def readUnit (s : Text) : Except Fault (Taken s Nat) :=
  match s with
  | a :: b :: c :: d :: r =>
    match hexNumber? [a, b, c, d] with
    | some n => .ok ⟨n, r, by simp; omega⟩
    | none => .error ⟨.invalidEscape, Utf8.size (a :: b :: c :: d :: r) - 4⟩
  | s =>
    if Utf8.size s < 4 then .error (.before .endInString [])
    else .error ⟨.invalidEscape, Utf8.size s - 4⟩

def isLowSurrogate (n : Nat) : Bool :=
  0xDC00 ≤ n && n ≤ 0xDFFF

def isHighSurrogate (n : Nat) : Bool :=
  0xD800 ≤ n && n ≤ 0xDBFF

/-- Read the second half of a surrogate pair, from its backslash on. -/
def readSecondUnit (high : Nat) (s : Text) : Except Fault (Taken s Char) :=
  match s with
  | '\\' :: 'u' :: r =>
    match readUnit r with
    | .error e => .error e
    | .ok ⟨low, r', h⟩ =>
      if isLowSurrogate low then
        .ok ⟨Char.ofNat (0x10000 + (high - 0xD800) * 0x400 + (low - 0xDC00)), r',
          Nat.lt_succ_of_lt (Nat.lt_succ_of_lt h)⟩
      else .error (.before .loneSurrogate r')
  | [] => .error (.before .endInString [])
  | ['\\'] => .error (.before .endInString [])
  | '\\' :: r => .error (.atFront .unfinishedSurrogate r)
  | r => .error (.atFront .unfinishedSurrogate r)

def simpleEscape (c : Char) : Option Char :=
  if c = '"' ∨ c = '\\' ∨ c = '/' then some c
  else if c = 'b' then some '\x08'
  else if c = 'f' then some '\x0c'
  else if c = 'n' then some '\n'
  else if c = 'r' then some '\r'
  else if c = 't' then some '\t'
  else none

/-- Read an escape, from the character after its backslash on. -/
def readEscape (s : Text) : Except Fault (Taken s Char) :=
  match s with
  | [] => .error (.before .endInString [])
  | c :: r =>
    if c = 'u' then
      match readUnit r with
      | .error e => .error e
      | .ok ⟨n, r', h⟩ =>
        if isLowSurrogate n then .error (.before .loneSurrogate r')
        else if isHighSurrogate n then
          (readSecondUnit n r').map (·.within (Nat.le_of_lt (Nat.lt_succ_of_lt h)))
        else .ok ⟨Char.ofNat n, r', Nat.lt_succ_of_lt h⟩
    else
      match simpleEscape c with
      | some e => .ok ⟨e, r, length_lt_cons _ _⟩
      | none => .error (.atFront .invalidEscape (c :: r))

/-! ## Reading -/

/-- Read the characters of a string and its closing quote. -/
def readQuoted (s : Text) : Except Fault (Taken s Text) :=
  match s with
  | [] => .error (.before .endInString [])
  | c :: r =>
    if c = '"' then .ok ⟨[], r, length_lt_cons _ _⟩
    else if c = '\\' then
      match readEscape r with
      | .error e => .error e
      | .ok ⟨d, r', h⟩ =>
        (readQuoted r').map fun t => (t.map (d :: ·)).within (by simp; omega)
    else if c.toNat < 0x20 then .error (.atFront .controlCharacter (c :: r))
    else (readQuoted r).map fun t => (t.map (c :: ·)).within (length_le_cons _ _)
termination_by s.length

end StoreLog.Json
