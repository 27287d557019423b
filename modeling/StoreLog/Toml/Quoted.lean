-- SUMMARY: Reading of TOML strings.
import StoreLog.Text.Taken

/-!
# TOML strings

The four spellings of a string: between double quotes with escapes or between
single quotes without, on one line or, between three quotes, on several.
-/

namespace StoreLog.Toml

def isSpace (c : Char) : Bool :=
  c == ' ' || c == '\t'

/-- No control character but the tab. -/
def isVisible (c : Char) : Bool :=
  c == '\t' || (0x20 ≤ c.toNat && c.toNat != 0x7F)

/-! ## Escapes -/

/-- The number that `n` digits in base sixteen write. -/
def readHex (value : Nat) : (n : Nat) → (s : Text) → Option (Left s Nat)
  | 0, s => some ⟨(value, s), Nat.le_refl _⟩
  | _ + 1, [] => none
  | n + 1, c :: s =>
    match Text.hexValue? c with
    | none => none
    | some d => (readHex (16 * value + d) n s).map fun ⟨r, h⟩ => ⟨r, Nat.le_succ_of_le h⟩

/-- The character of a code point, if that is none of a surrogate. -/
def scalarOf (n : Nat) : Option Char :=
  if h : n.isValidChar then some (Char.ofNatAux n h) else none

def readCodePoint (digits : Nat) (s : Text) : Option (Left s Char) :=
  match readHex 0 digits s with
  | none => none
  | some ⟨(n, r), h⟩ => (scalarOf n).map fun c => ⟨(c, r), h⟩

def simpleEscape? (c : Char) : Option Char :=
  if c = 'b' then some '\x08'
  else if c = 't' then some '\t'
  else if c = 'n' then some '\n'
  else if c = 'f' then some '\x0c'
  else if c = 'r' then some '\r'
  else if c = '"' ∨ c = '\\' then some c
  else none

/-- Read an escape from the character after its backslash on. -/
def readEscape : (s : Text) → Option (Taken s Char)
  | [] => none
  | c :: s =>
    if c = 'u' then (readCodePoint 4 s).map fun ⟨(d, r), h⟩ => ⟨d, r, Nat.lt_succ_of_le h⟩
    else if c = 'U' then (readCodePoint 8 s).map fun ⟨(d, r), h⟩ => ⟨d, r, Nat.lt_succ_of_le h⟩
    else (simpleEscape? c).map fun d => ⟨d, s, length_lt_cons _ _⟩

/-! ## On one line -/

/-- Read the rest of a string in double quotes. -/
def readBasic (s : Text) : Option (Taken s Text) :=
  match s with
  | [] => none
  | c :: r =>
    if c = '"' then some ⟨[], r, length_lt_cons _ _⟩
    else if c = '\\' then
      match readEscape r with
      | none => none
      | some ⟨d, r', h⟩ =>
        (readBasic r').map fun t => (t.map (d :: ·)).within (Nat.le_of_lt (Nat.lt_succ_of_lt h))
    else if isVisible c then
      (readBasic r).map fun t => (t.map (c :: ·)).within (length_le_cons _ _)
    else none
termination_by s.length
decreasing_by
  · exact Nat.lt_succ_of_lt h
  · exact length_lt_cons c r

/-- Read the rest of a string in single quotes. -/
def readLiteral : (s : Text) → Option (Taken s Text)
  | [] => none
  | c :: s =>
    if c = '\x27' then some ⟨[], s, length_lt_cons _ _⟩
    else if isVisible c then
      (readLiteral s).map fun t => (t.map (c :: ·)).within (length_le_cons _ _)
    else none

/-! ## On several lines -/

/-- What follows the end of a line at the front. -/
def dropLineEnd? : Text → Option Text
  | '\n' :: s => some s
  | '\r' :: '\n' :: s => some s
  | _ => none

theorem length_dropLineEnd? {s r : Text} (h : dropLineEnd? s = some r) : r.length < s.length := by
  unfold dropLineEnd? at h
  split at h <;> simp at h <;> subst h <;> simp only [List.length_cons] <;> omega

/-- Drop spaces and line ends. -/
def dropSpaces : Text → Text
  | '\r' :: '\n' :: s => dropSpaces s
  | c :: s => if isSpace c || c == '\n' then dropSpaces s else c :: s
  | [] => []

theorem length_dropSpaces_le (s : Text) : (dropSpaces s).length ≤ s.length := by
  fun_induction dropSpaces s <;> simp_all <;> omega

/-- The end of a line after which a backslash stood: where the text goes on. -/
def continued? (s : Text) : Option Text :=
  (dropLineEnd? (s.dropWhile isSpace)).map dropSpaces

theorem length_continued? {s r : Text} (h : continued? s = some r) : r.length < s.length := by
  simp only [continued?, Option.map_eq_some_iff] at h
  obtain ⟨t, ht, rfl⟩ := h
  exact Nat.lt_of_le_of_lt (length_dropSpaces_le t)
    (Nat.lt_of_lt_of_le (length_dropLineEnd? ht) (length_dropWhile_le ..))

/-- The quotes at the front end a string if they are three or more; two more
may belong to its content. The content they add, and what follows them. -/
def closing? (quote : Char) (s : Text) : Option (Text × Text) :=
  let n := (s.takeWhile (· == quote)).length
  if n < 3 then none else some (List.replicate (min (n - 3) 2) quote, s.drop (min n 5))

theorem length_closing? {quote : Char} {s a r : Text} (h : closing? quote s = some (a, r)) :
    r.length < s.length := by
  simp only [closing?] at h
  split at h
  · simp at h
  · next hn =>
    simp only [Option.some.injEq, Prod.mk.injEq] at h
    have := (List.takeWhile_prefix (l := s) (· == quote)).length_le
    rw [← h.2, List.length_drop]
    omega

/-- Read the rest of a string in three quotes; escapes count in double ones. -/
def readLines (quote : Char) (s : Text) : Option (Taken s Text) :=
  match s with
  | [] => none
  | c :: r =>
    if c = quote then
      match h : closing? quote (c :: r) with
      | some (content, r') => some ⟨content, r', length_closing? h⟩
      | none => (readLines quote r).map fun t => (t.map (c :: ·)).within (length_le_cons _ _)
    else if c = '\\' ∧ quote = '"' then
      match h : continued? r with
      | some r' =>
        (readLines quote r').map (·.within (Nat.le_of_lt (Nat.lt_succ_of_lt (length_continued? h))))
      | none =>
        match readEscape r with
        | none => none
        | some ⟨d, r', h'⟩ =>
          (readLines quote r').map fun t =>
            (t.map (d :: ·)).within (Nat.le_of_lt (Nat.lt_succ_of_lt h'))
    else
      match h : dropLineEnd? (c :: r) with
      | some r' =>
        (readLines quote r').map fun t =>
          (t.map ('\n' :: ·)).within (Nat.le_of_lt (length_dropLineEnd? h))
      | none =>
        if isVisible c then
          (readLines quote r).map fun t => (t.map (c :: ·)).within (length_le_cons _ _)
        else none
termination_by s.length
decreasing_by
  · exact length_lt_cons c r
  · exact Nat.lt_succ_of_lt (length_continued? h)
  · exact Nat.lt_succ_of_lt h'
  · exact length_dropLineEnd? h
  · exact length_lt_cons c r

/-- Read the rest of a string in three quotes; a line end at once does not count. -/
def readMultiline (quote : Char) (s : Text) : Option (Taken s Text) :=
  match h : dropLineEnd? s with
  | some r => (readLines quote r).map (·.within (Nat.le_of_lt (length_dropLineEnd? h)))
  | none => readLines quote s

/-! ## All strings -/

/-- Read a string on one line. -/
def readOneLine : (s : Text) → Option (Taken s Text)
  | '"' :: s => (readBasic s).map (·.within (length_le_cons _ _))
  | '\x27' :: s => (readLiteral s).map (·.within (length_le_cons _ _))
  | _ => none

def readString : (s : Text) → Option (Taken s Text)
  | '"' :: '"' :: '"' :: s => (readMultiline '"' s).map (·.within (by simp; omega))
  | '\x27' :: '\x27' :: '\x27' :: s => (readMultiline '\x27' s).map (·.within (by simp; omega))
  | s => readOneLine s

end StoreLog.Toml
