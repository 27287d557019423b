-- SUMMARY: A reader of TOML documents.
import StoreLog.Toml.Quoted
import StoreLog.Toml.Scalar

/-!
# Reading TOML

A document is read line by line into a draft. Values nest, so they are read by
recursion on how deeply they may still do so. All that is asked of a text is
whether it is a document, and which; where it goes wrong is not recorded.
-/

namespace StoreLog.Toml

/-- How many arrays and inline tables may stand around each other, and how many
parts a dotted key may have. -/
def maxDepth : Nat := 79

/-! ## Blanks -/

def dropSpace (s : Text) : Text :=
  s.dropWhile isSpace

theorem length_dropSpace_le (s : Text) : (dropSpace s).length ≤ s.length :=
  length_dropWhile_le ..

/-- Drop spaces, line ends and comments, as they may stand inside an array. -/
def dropVoid (inComment : Bool) : Text → Text
  | [] => []
  | '\r' :: '\n' :: s => dropVoid false s
  | c :: s =>
    if c = '\n' then dropVoid false s
    else if inComment then if isVisible c then dropVoid true s else c :: s
    else if isSpace c then dropVoid false s
    else if c = '#' then dropVoid true s
    else c :: s

theorem length_dropVoid_le (b : Bool) (s : Text) : (dropVoid b s).length ≤ s.length := by
  fun_induction dropVoid b s <;> simp_all <;> omega

/-- Drop spaces, a comment, and the end of the line or of the text. -/
def dropLineRest? (s : Text) : Option Text :=
  let s := match dropSpace s with
    | '#' :: s => s.dropWhile isVisible
    | s => s
  if s.isEmpty then some [] else dropLineEnd? s

theorem length_dropLineRest? {s r : Text} (h : dropLineRest? s = some r) :
    r.length ≤ s.length ∧ (s ≠ [] → r.length < s.length) := by
  have hs := length_dropSpace_le s
  simp only [dropLineRest?] at h
  have key : ∀ t : Text, t.length ≤ s.length →
      (if t.isEmpty then some [] else dropLineEnd? t) = some r →
      r.length ≤ s.length ∧ (s ≠ [] → r.length < s.length) := by
    intro t ht h
    split at h
    · cases h
      exact ⟨by simp, fun hne => List.length_pos_iff.2 hne⟩
    · have := length_dropLineEnd? h
      omega
  refine key _ ?_ h
  split
  · next t ht =>
    rw [ht] at hs
    have := length_dropWhile_le isVisible t
    simp at hs
    omega
  · exact hs

/-- Read one character. -/
def readMark (mark : Char) : (s : Text) → Option (Taken s Unit)
  | [] => none
  | c :: s => if c = mark then some ⟨(), s, length_lt_cons _ _⟩ else none

/-! ## Keys -/

def isBare (c : Char) : Bool :=
  c.isAlphanum || c == '_' || c == '-'

def readSimpleKey (s : Text) : Option (Taken s Text) :=
  match s with
  | [] => none
  | c :: r =>
    if isBare c then
      some ⟨c :: r.takeWhile isBare, r.dropWhile isBare,
        Nat.lt_succ_of_le (length_dropWhile_le ..)⟩
    else readOneLine (c :: r)

/-- Read a dotted key, with spaces around its parts. -/
def readParts (s : Text) : Option (Taken s (List Text)) :=
  match readSimpleKey (dropSpace s) with
  | none => none
  | some ⟨part, r, h⟩ =>
    have hr : (dropSpace r).length < s.length :=
      Nat.lt_of_le_of_lt (length_dropSpace_le r) (Nat.lt_of_lt_of_le h (length_dropSpace_le s))
    match readMark '.' (dropSpace r) with
    | some ⟨_, r', h'⟩ =>
      (readParts r').map fun t => (t.map (part :: ·)).within (by omega)
    | none => some ⟨[part], dropSpace r, hr⟩
termination_by s.length

def readKey (s : Text) : Option (Taken s (List Text)) :=
  (readParts s).filter (·.value.length ≤ maxDepth)

/-! ## Values -/

/-- A reader of one value. -/
abbrev NodeReader :=
  (s : Text) → Option (Taken s Node)

/-- Read a scalar. A date may go on after a space with a time. -/
def readScalar (s : Text) : Option (Taken s Node) :=
  match s with
  | [] => none
  | c :: r =>
    if isScalarChar c then
      let first := c :: r.takeWhile isScalarChar
      let rest := r.dropWhile isScalarChar
      have h : rest.length < (c :: r).length := Nat.lt_succ_of_le (length_dropWhile_le ..)
      match hr : rest with
      | ' ' :: d :: r' =>
        if isDate first ∧ d.isDigit then
          if isTimeWithOffset (d :: r'.takeWhile isScalarChar) then
            some ⟨.dateTime, r'.dropWhile isScalarChar, by
              have := length_dropWhile_le isScalarChar r'
              simp at h ⊢
              omega⟩
          else none
        else (scalar? first).map fun n => ⟨n, ' ' :: d :: r', h⟩
      | rest => (scalar? first).map fun n => ⟨n, rest, h⟩
    else none

/-- Read the items of an array and its closing bracket. -/
def readItems (item : NodeReader) (s : Text) : Option (Taken s (List Node)) :=
  have hs := length_dropVoid_le false s
  match readMark ']' (dropVoid false s) with
  | some ⟨_, r, h⟩ => some ⟨[], r, by omega⟩
  | none =>
    match item (dropVoid false s) with
    | none => none
    | some ⟨n, r, h⟩ =>
      have hr := length_dropVoid_le false r
      match readMark ',' (dropVoid false r) with
      | some ⟨_, r', h'⟩ =>
        (readItems item r').map fun t => (t.map (n :: ·)).within (by omega)
      | none =>
        match readMark ']' (dropVoid false r) with
        | some ⟨_, r', h'⟩ => some ⟨[n], r', by omega⟩
        | none => none
termination_by s.length

/-- Read a key, the equals sign and a value. -/
def readPair (item : NodeReader) (s : Text) : Option (Taken s (List Text × Node)) :=
  match readKey s with
  | none => none
  | some ⟨key, r, h⟩ =>
    match readMark '=' r with
    | none => none
    | some ⟨_, r', h'⟩ =>
      (item (dropSpace r')).map fun t => (t.map (key, ·)).within (by
        have := length_dropSpace_le r'
        omega)

/-- Add a value under a dotted key that is given as one path. -/
def insertPair (es : Entries) (pair : List Text × Node) : Option Entries :=
  match pair.1.getLast? with
  | none => none
  | some name => insertKey es pair.1.dropLast name pair.2

/-- Read the pairs of an inline table, at least one, and its closing brace. -/
def readPairs (item : NodeReader) (es : Entries) (s : Text) : Option (Taken s Entries) :=
  match readPair item s with
  | none => none
  | some ⟨pair, r, h⟩ =>
    match insertPair es pair with
    | none => none
    | some es =>
      have hr := length_dropSpace_le r
      match readMark ',' (dropSpace r) with
      | some ⟨_, r', h'⟩ => (readPairs item es r').map (·.within (by omega))
      | none =>
        match readMark '\x7d' (dropSpace r) with
        | some ⟨_, r', h'⟩ => some ⟨es, r', by omega⟩
        | none => none
termination_by s.length

/-- Read what follows the opening brace of an inline table. -/
def readInline (item : NodeReader) (s : Text) : Option (Taken s Node) :=
  have hs := length_dropSpace_le s
  match readMark '\x7d' (dropSpace s) with
  | some ⟨_, r, h⟩ => some ⟨.table .inline [], r, by omega⟩
  | none => (readPairs item [] s).map fun t => t.map (.table .inline)

/-- Read a value with at most `depth` arrays and inline tables around each other. -/
def readNode : (depth : Nat) → NodeReader
  | depth, s =>
    match s with
    | [] => none
    | c :: r =>
      if c = '[' then
        match depth with
        | 0 => none
        | depth + 1 =>
          (readItems (readNode depth) r).map fun t => (t.map .array).within (length_le_cons _ _)
      else if c = '\x7b' then
        match depth with
        | 0 => none
        | depth + 1 => (readInline (readNode depth) r).map fun t => t.within (length_le_cons _ _)
      else if c = '"' ∨ c = '\x27' then (readString (c :: r)).map (·.map .string)
      else readScalar (c :: r)

/-! ## Documents -/

/-- Read a header and open its table. -/
def readHeader (d : Draft) (s : Text) : Option (Taken s Draft) :=
  match s with
  | '[' :: '[' :: r => do
    let ⟨path, r, h⟩ ← readKey r
    let ⟨_, r, h'⟩ ← readMark ']' r
    let ⟨_, r, h''⟩ ← readMark ']' r
    let d ← d.openItem path
    some ⟨d, r, by simp; omega⟩
  | '[' :: r => do
    let ⟨path, r, h⟩ ← readKey r
    let ⟨_, r, h'⟩ ← readMark ']' r
    let d ← d.openTable path
    some ⟨d, r, by simp; omega⟩
  | _ => none

/-- Read a pair into a draft. -/
def readEntry (d : Draft) (s : Text) : Option (Taken s Draft) :=
  match readPair (readNode maxDepth) s with
  | none => none
  | some ⟨pair, r, h⟩ => (insertPair d.current pair).map fun es => ⟨{ d with current := es }, r, h⟩

/-- Read what stands on a line before its end: nothing or a comment, a header, or
a pair. -/
def readLine (d : Draft) (s : Text) : Option (Left s Draft) :=
  match s.head? with
  | some '[' => (readHeader d s).map fun t => ⟨(t.value, t.rest), Nat.le_of_lt t.shorter⟩
  | some '#' | some '\n' | some '\r' | none => some ⟨(d, s), Nat.le_refl _⟩
  | _ => (readEntry d s).map fun t => ⟨(t.value, t.rest), Nat.le_of_lt t.shorter⟩

/-- Read the lines of a document. -/
def readLinesInto (d : Draft) (s : Text) : Option Draft :=
  if hs : s = [] then some d
  else
    match readLine d (dropSpace s) with
    | none => none
    | some ⟨(d, r), hr⟩ =>
      match h : dropLineRest? r with
      | none => none
      | some r' =>
        have hlt : r'.length < s.length := by
          have hd := length_dropSpace_le s
          have := length_dropLineRest? h
          have hpos := List.length_pos_iff.2 hs
          by_cases hr' : r = []
          · have := this.1
            simp [hr'] at this
            simp [this, hpos]
          · have := this.2 hr'
            simp only at hr
            omega
        readLinesInto d r'
termination_by s.length

/-- The entries of a document, if the text is one. A byte order mark at the front
does not count. -/
def parse (s : Text) : Option Entries :=
  let s := match s with
    | '\uFEFF' :: s => s
    | s => s
  (readLinesInto {} s).bind Draft.finish

end StoreLog.Toml
