-- SUMMARY: The syntax of shell scripts, and a reader for it.
import StoreLog.Text.Basic

/-!
# Scripts

The part of the language of shells in which a dump command is written on one line:
commands with redirections of their output, lists of them, subshells, and loops over
words. Words have quotes, parameters and sums in them. A text that goes beyond that is no
script here.

`Script.read` is a recursive descent on the characters. Its readers have a measure of how
many more calls they may make, of which it gives them enough for every text.
-/

namespace StoreLog.Host

/-! ## Syntax -/

/-- What a dollar sign can stand before. -/
inductive Param
  /-- The name of the script, or one of its arguments. -/
  | position (n : Nat)
  /-- All arguments, one by one. -/
  | every
  | count
  /-- The exit code of the last command. -/
  | status
  /-- The number of the shell. -/
  | shell
  | named (name : Text)
deriving DecidableEq, Repr

/-- An arithmetic expression. -/
inductive Sum
  | number (n : Int)
  | param (p : Param)
  | add (a b : Sum)
  | sub (a b : Sum)
  | mul (a b : Sum)
deriving DecidableEq, Repr

/-- What one place of a pattern matches. -/
inductive Glyph
  | one (c : Char)
  | any
  | many
deriving DecidableEq, Repr

abbrev Pattern := List Glyph

/-- A part of a word. -/
inductive Piece
  | text (quoted : Bool) (s : Text)
  | param (quoted : Bool) (p : Param)
  /-- A parameter without the shortest end that a pattern matches. -/
  | trimmed (quoted : Bool) (p : Param) (pattern : Pattern)
  | sum (quoted : Bool) (e : Sum)
deriving DecidableEq, Repr

/-- A word as it is written. -/
abbrev Word := List Piece

/-- Where one of the two output streams goes to. -/
inductive Redirect
  | file (isErr append : Bool) (target : Word)
  /-- To where a stream goes. -/
  | share (isErr toErr : Bool)
deriving DecidableEq, Repr

inductive Script
  | nothing
  | simple (words : List Word) (redirects : List Redirect)
  | seq (first second : Script)
  /-- The second part is run if the first succeeds. -/
  | both (first second : Script)
  /-- The second part is run if the first fails. -/
  | either (first second : Script)
  /-- A script in a shell of its own. -/
  | subshell (script : Script)
  /-- The body is run for every word. -/
  | each (name : Text) (words : List Word) (body : Script)
deriving DecidableEq, Repr

/-! ## Readers -/

/-- A reader takes something off the front of a text, or finds that it is no script. -/
abbrev Reading := StateT Text Option

namespace Reading

def accept (s : String) : Reading Bool := fun t =>
  match s.toList.isPrefixOf? t with
  | some rest => some (true, rest)
  | none => some (false, t)

def require (s : String) : Reading Unit := do
  if !(← accept s) then failure

def takeWhile (p : Char → Bool) : Reading Text := fun t =>
  some (t.takeWhile p, t.dropWhile p)

/-- Go over characters, and over a comment after them. -/
def skip (p : Char → Bool) : Reading Unit :=
  modify fun t =>
    match t.dropWhile p with
    | '#' :: s => s.dropWhile (· != '\n')
    | s => s

end Reading

open Reading

/-! ## Words -/

def isNameStart (c : Char) : Bool :=
  c.isAlpha || c == '_'

def isNameRest (c : Char) : Bool :=
  c.isAlphanum || c == '_'

def isSpace (c : Char) : Bool :=
  c == ' ' || c == '\t'

def isSpaceOrEnd (c : Char) : Bool :=
  isSpace c || c == '\n'

/-- A character that ends a word. -/
def endsWord (c : Char) : Bool :=
  isSpace c || ";&|<>()\n".toList.contains c

/-- A character that stands for itself in every word. -/
def isPlain (c : Char) : Bool :=
  !(endsWord c || "'\x22\\$\x60".toList.contains c)

/-- Read the parameter after a dollar sign. -/
def readParam : Reading Param := do
  match ← get with
  | [] => failure
  | c :: s =>
    if isNameStart c then return .named (← takeWhile isNameRest)
    set s
    if c.isDigit then return .position (Text.valueOf 10 [c])
    match c with
    | '@' => return .every
    | '#' => return .count
    | '?' => return .status
    | '$' => return .shell
    | _ => failure

def Pattern.read (s : Text) : Pattern :=
  s.map fun
    | '*' => .many
    | '?' => .any
    | c => .one c

/-- Read what is in braces after a dollar sign. -/
def readBraced (quoted : Bool) : Reading Piece := do
  let p ← readParam
  if ← accept "%" then
    let pattern ← takeWhile (· != '\x7d')
    require "\x7d"
    return .trimmed quoted p (.read pattern)
  else
    require "\x7d"
    return .param quoted p

mutual

/-- Read a sum up to what can be no part of it. -/
def readSum : Nat → Reading Sum
  | 0 => failure
  | n + 1 => do
    let a ← readProduct n
    readSumAfter n a

def readSumAfter : Nat → Sum → Reading Sum
  | 0, _ => failure
  | n + 1, a => do
    let _ ← takeWhile isSpace
    if ← accept "+" then readSumAfter n (.add a (← readProduct n))
    else if ← accept "-" then readSumAfter n (.sub a (← readProduct n))
    else return a

def readProduct : Nat → Reading Sum
  | 0 => failure
  | n + 1 => do
    let a ← readFactor n
    readProductAfter n a

def readProductAfter : Nat → Sum → Reading Sum
  | 0, _ => failure
  | n + 1, a => do
    let _ ← takeWhile isSpace
    if ← accept "*" then readProductAfter n (.mul a (← readFactor n)) else return a

def readFactor : Nat → Reading Sum
  | 0 => failure
  | n + 1 => do
    let _ ← takeWhile isSpace
    if ← accept "(" then
      let e ← readSum n
      require ")"
      return e
    else if ← accept "$" then return .param (← readParam)
    else
      let digits ← takeWhile Char.isDigit
      if digits.isEmpty then return .param (.named (← takeWhile isNameRest))
      else return .number (Text.valueOf 10 digits)

end

/-- Read what comes after a dollar sign. -/
def readDollar (n : Nat) (quoted : Bool) : Reading Piece := do
  if ← accept "((" then
    let e ← readSum n
    require "))"
    return .sum quoted e
  else if ← accept "\x7b" then readBraced quoted
  else return .param quoted (← readParam)

/-- Read pieces up to the end of a word, or of what is between double quotes. -/
def readPieces : Nat → (quoted : Bool) → Reading Word
  | 0, _ => failure
  | n + 1, quoted => do
    match ← get with
    | [] => if quoted then failure else return []
    | c :: s =>
      if (if quoted then c == '\x22' else endsWord c) then return []
      set s
      match c with
      | '\x22' =>
        let inside ← readPieces n true
        require "\x22"
        return .text true [] :: inside ++ (← readPieces n false)
      | '$' =>
        let piece ← readDollar n quoted
        return piece :: (← readPieces n quoted)
      | '\\' =>
        match s with
        | [] => return [.text quoted [c]]
        | d :: s =>
          set s
          let kept := quoted && !"\x22\\$\x60".toList.contains d
          return .text true (if kept then [c, d] else [d]) :: (← readPieces n quoted)
      | '\x60' => failure
      | '\'' =>
        if quoted then return .text true [c] :: (← readPieces n quoted)
        else
          let inside ← takeWhile (· != '\'')
          require "'"
          return .text true inside :: (← readPieces n quoted)
      | c =>
        let more ← takeWhile isPlain
        return .text quoted (c :: more) :: (← readPieces n quoted)

def readWord (n : Nat) : Reading Word := do
  skip isSpace
  let w ← readPieces n false
  if w.isEmpty then failure else return w

/-! ## Commands -/

/-- The stream that a redirection is about, which a digit before its mark says, and the
rest of the mark. -/
def redirectMark? : Text → Option (Bool × Text)
  | '>' :: s => some (false, s)
  | '1' :: '>' :: s => some (false, s)
  | '2' :: '>' :: s => some (true, s)
  | _ => none

/-- Read a redirection from after its mark on. -/
def readRedirect (n : Nat) (isErr : Bool) : Reading Redirect := do
  if ← accept "&1" then return .share isErr false
  else if ← accept "&2" then return .share isErr true
  else if ← accept ">" then return .file isErr true (← readWord n)
  else return .file isErr false (← readWord n)

/-- Read the words and the redirections of a command. -/
def readSimple : Nat → Reading (List Word × List Redirect)
  | 0 => failure
  | n + 1 => do
    skip isSpace
    let s ← get
    match redirectMark? s with
    | some (isErr, s) =>
      set s
      let r ← readRedirect n isErr
      let (words, redirects) ← readSimple n
      return (words, r :: redirects)
    | none =>
      if s.head?.all endsWord then return ([], [])
      else
        let w ← readPieces n false
        let (words, redirects) ← readSimple n
        return (w :: words, redirects)

def isKeyword (word : String) (s : Text) : Bool :=
  match word.toList.isPrefixOf? s with
  | some rest => rest.head?.all endsWord
  | none => false

/-- What a command that is read does not start with: the keywords of others, and
assignments. -/
def startsOther (s : Text) : Bool :=
  ["!", "\x7b", "case", "do", "done", "if", "until", "while"].any (isKeyword · s) ||
    (s.dropWhile isNameRest).head? == some '='

/-- Take a keyword, which may stand on a later line. -/
def requireKeyword (word : String) : Reading Unit := do
  skip isSpaceOrEnd
  if isKeyword word (← get) then modify (·.drop word.length) else failure

/-- Whether a list of commands ends here. -/
def endsList (s : Text) : Bool :=
  s.isEmpty || s.head? == some ')' || isKeyword "done" s

mutual

/-- Read a list, which may go over several lines and may be empty. -/
def readList : Nat → Reading Script
  | 0 => failure
  | n + 1 => do
    skip isSpaceOrEnd
    if endsList (← get) then return .nothing
    else
      let a ← readJoined n (← readCommand n)
      match ← get with
      | ';' :: s =>
        set s
        return .seq a (← readList n)
      | '\n' :: s =>
        set s
        return .seq a (← readList n)
      | _ => return a

/-- Read what is joined to a script that has been read. -/
def readJoined : Nat → Script → Reading Script
  | 0, _ => failure
  | n + 1, a => do
    skip isSpace
    if ← accept "&&" then readJoined n (.both a (← readCommand n))
    else if ← accept "||" then readJoined n (.either a (← readCommand n))
    else return a

def readCommand : Nat → Reading Script
  | 0 => failure
  | n + 1 => do
    skip isSpaceOrEnd
    if ← accept "(" then
      let body ← readList n
      require ")"
      return .subshell body
    else if isKeyword "for" (← get) then
      requireKeyword "for"
      skip isSpace
      let name ← takeWhile isNameRest
      requireKeyword "in"
      let (words, _) ← readSimple n
      let _ ← accept ";"
      requireKeyword "do"
      let body ← readList n
      requireKeyword "done"
      return .each name words body
    else if startsOther (← get) then failure
    else
      let (words, redirects) ← readSimple n
      if words.isEmpty && redirects.isEmpty then failure else return .simple words redirects

end

/-- The script that a text writes. -/
def Script.read (s : Text) : Option Script :=
  match (readList (8 * (s.length + 2))).run s with
  | some (script, []) => some script
  | _ => none

end StoreLog.Host
