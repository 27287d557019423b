-- SUMMARY: A reader of JSON texts that reports the first fault.
import StoreLog.Json.Numeral
import StoreLog.Json.Quoted

/-!
# Reading JSON texts

A value is read by recursion on how deeply it may still nest; the items of an
array and the members of an object are read one after the other, each from what
the one before it left. The first fault in the order of the text ends the reading.
-/

namespace StoreLog.Json

def isBlank (c : Char) : Bool :=
  c == ' ' || c == '\n' || c == '\t' || c == '\r'

def skipBlanks (s : Text) : Text :=
  s.dropWhile isBlank

theorem length_skipBlanks_le (s : Text) : (skipBlanks s).length ≤ s.length :=
  length_dropWhile_le ..

/-- A reader of one value. -/
abbrev ValueReader :=
  (s : Text) → Except Fault (Taken s Value)

/-! ## Literals -/

/-- Read the letters that complete a literal name. -/
def readLetters (v : Value) : Text → (s : Text) → Except Fault (Left s Value)
  | [], s => .ok ⟨(v, s), Nat.le_refl _⟩
  | _ :: _, [] => .error (.before .endInValue [])
  | l :: ls, c :: s =>
    if c = l then (readLetters v ls s).map fun ⟨r, h⟩ => ⟨r, Nat.le_succ_of_le h⟩
    else .error (.atFront .expectedIdent (c :: s))

def readLiteral (v : Value) (letters : Text) (c : Char) (s : Text) :
    Except Fault (Taken (c :: s) Value) :=
  (readLetters v letters s).map fun ⟨(v, r), h⟩ => ⟨v, r, Nat.lt_succ_of_le h⟩

/-! ## Arrays -/

/-- Read the items after the first one, and the closing bracket. -/
def readMoreItems (item : ValueReader) (s : Text) : Except Fault (Taken s (List Value)) :=
  match hs : skipBlanks s with
  | [] => .error (.atFront .endInList [])
  | c :: r =>
    have h : r.length < s.length := by
      have := length_skipBlanks_le s
      simp only [hs, List.length_cons] at this
      omega
    if c = ']' then .ok ⟨[], r, h⟩
    else if c = ',' then
      if (skipBlanks r).head? = some ']' then .error (.atFront .trailingComma (skipBlanks r))
      else
        match item r with
        | .error e => .error e
        | .ok ⟨v, r', h'⟩ =>
          (readMoreItems item r').map fun t =>
            (t.map (v :: ·)).within (Nat.le_of_lt (Nat.lt_trans h' h))
    else .error (.atFront .expectedListCommaOrEnd (c :: r))
termination_by s.length

/-- Read what follows the opening bracket of an array. -/
def readItems (item : ValueReader) (s : Text) : Except Fault (Taken s Value) :=
  match hs : skipBlanks s with
  | [] => .error (.atFront .endInList [])
  | c :: r =>
    have h : r.length < s.length := by
      have := length_skipBlanks_le s
      simp only [hs, List.length_cons] at this
      omega
    if c = ']' then .ok ⟨.array [], r, h⟩
    else
      match item s with
      | .error e => .error e
      | .ok ⟨v, r', h'⟩ =>
        (readMoreItems item r').map fun t =>
          (t.map fun vs => .array (v :: vs)).within (Nat.le_of_lt h')

/-! ## Objects -/

/-- Read a name, the colon and a value. -/
def readMember (item : ValueReader) (s : Text) : Except Fault (Taken s (Text × Value)) :=
  match s with
  | [] => .error (.atFront .endInValue [])
  | c :: r =>
    if c = '"' then
      match readQuoted r with
      | .error e => .error e
      | .ok ⟨name, r', h⟩ =>
        match hs : skipBlanks r' with
        | [] => .error (.atFront .endInObject [])
        | d :: r'' =>
          if d = ':' then
            (item r'').map fun t => (t.map (name, ·)).within (by
              have := length_skipBlanks_le r'
              simp only [hs, List.length_cons] at this ⊢
              omega)
          else .error (.atFront .expectedColon (d :: r''))
    else .error (.atFront .keyNotString (c :: r))

/-- Read the members after the first one, and the closing brace. -/
def readMoreMembers (item : ValueReader) (s : Text) :
    Except Fault (Taken s (List (Text × Value))) :=
  match hs : skipBlanks s with
  | [] => .error (.atFront .endInObject [])
  | c :: r =>
    have h : r.length < s.length := by
      have := length_skipBlanks_le s
      simp only [hs, List.length_cons] at this
      omega
    if c = '\x7d' then .ok ⟨[], r, h⟩
    else if c = ',' then
      if (skipBlanks r).head? = some '\x7d' then .error (.atFront .trailingComma (skipBlanks r))
      else
        match readMember item (skipBlanks r) with
        | .error e => .error e
        | .ok ⟨m, r', h'⟩ =>
          have h'' : r'.length < s.length :=
            Nat.lt_trans (Nat.lt_of_lt_of_le h' (length_skipBlanks_le r)) h
          (readMoreMembers item r').map fun t => (t.map (m :: ·)).within (Nat.le_of_lt h'')
    else .error (.atFront .expectedObjectCommaOrEnd (c :: r))
termination_by s.length

/-- Read what follows the opening brace of an object. -/
def readMembers (item : ValueReader) (s : Text) : Except Fault (Taken s Value) :=
  match hs : skipBlanks s with
  | [] => .error (.atFront .endInObject [])
  | c :: r =>
    have h : r.length < s.length := by
      have := length_skipBlanks_le s
      simp only [hs, List.length_cons] at this
      omega
    if c = '\x7d' then .ok ⟨.object [], r, h⟩
    else
      match readMember item (c :: r) with
      | .error e => .error e
      | .ok ⟨m, r', h'⟩ =>
        (readMoreMembers item r').map fun t =>
          (t.map fun ms => .object (m :: ms)).within (by
            have := length_skipBlanks_le s
            simp only [hs, List.length_cons] at this h'
            omega)

/-! ## Values -/

/-- Read a value that begins with the character `c`. -/
def readFrom (nested : Option ValueReader) (c : Char) (s : Text) :
    Except Fault (Taken (c :: s) Value) :=
  if c = '[' then
    match nested with
    | none => .error (.atFront .nestedTooDeep (c :: s))
    | some item => (readItems item s).map (·.within (length_le_cons _ _))
  else if c = '\x7b' then
    match nested with
    | none => .error (.atFront .nestedTooDeep (c :: s))
    | some item => (readMembers item s).map (·.within (length_le_cons _ _))
  else if c = '"' then (readQuoted s).map fun t => (t.map .string).within (length_le_cons _ _)
  else if c = 'n' then readLiteral .null ['u', 'l', 'l'] c s
  else if c = 't' then readLiteral (.boolean true) ['r', 'u', 'e'] c s
  else if c = 'f' then readLiteral (.boolean false) ['a', 'l', 's', 'e'] c s
  else if c = '-' ∨ c.isDigit then (readNumber (c :: s)).map (·.map .number)
  else .error (.atFront .expectedValue (c :: s))

/-- Read a value with at most `depth` arrays and objects around each other. -/
def readValue : (depth : Nat) → ValueReader
  | depth, s =>
    match hs : skipBlanks s with
    | [] => .error (.atFront .endInValue [])
    | c :: r =>
      let nested : Option ValueReader :=
        match depth with
        | 0 => none
        | depth + 1 => some (readValue depth)
      (readFrom nested c r).map (·.within (hs ▸ length_skipBlanks_le s))

/-- How many arrays and objects may stand around each other. -/
def maxDepth : Nat := 127

/-- The value of a JSON text, with nothing but blanks around it. -/
def parse (s : Text) : Except Error Value :=
  match readValue maxDepth s with
  | .error e => .error (e.locate s)
  | .ok ⟨v, r, _⟩ =>
    match skipBlanks r with
    | [] => .ok v
    | r' => .error ((Fault.atFront .trailingCharacters r').locate s)

end StoreLog.Json
