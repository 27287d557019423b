-- SUMMARY: What the words of a shell command come to.
import StoreLog.Host.Program
import StoreLog.Host.Script

/-!
# Expansion

A word is first made into marks: characters that may be quoted, and the borders between
fields. What comes from a parameter outside of quotes is split at white space. Then every
field that is a pattern becomes the paths that match it.
-/

namespace StoreLog.Host

/-! ## Patterns -/

/-- All ends of a text, from the whole of it to the empty one. -/
def suffixes : Text → List Text
  | [] => [[]]
  | c :: s => (c :: s) :: suffixes s

/-- The whole text matches the pattern. -/
def Pattern.fits : Pattern → Text → Bool
  | [], s => s.isEmpty
  | .many :: p, s => (suffixes s).any fun t => fits p t
  | .any :: p, _ :: s => fits p s
  | .one a :: p, c :: s => a == c && fits p s
  | _ :: _, [] => false

/-- A text without its shortest end that matches. -/
def Pattern.trimEnd (p : Pattern) (s : Text) : Text :=
  match (suffixes s).reverse.find? p.fits with
  | some t => s.take (s.length - t.length)
  | none => s

/-! ## Parameters -/

/-- What a script can ask for. -/
structure Scope where
  name : Text
  args : List Text
  vars : List (Text × Text)
  status : Nat
  shell : Nat

def ofNat (n : Nat) : Text :=
  (toString n).toList

namespace Scope

/-- The value of a parameter as one text; one that is not set is empty. -/
def value (x : Scope) : Param → Text
  | .position 0 => x.name
  | .position (n + 1) => (x.args[n]?).getD []
  | .every => [' '].intercalate x.args
  | .count => ofNat x.args.length
  | .status => ofNat x.status
  | .shell => ofNat x.shell
  | .named name => (x.vars.lookup name).getD []

/-- The value of a sum. What is no number counts as zero. -/
def sum (x : Scope) : Sum → Int
  | .number n => n
  | .param p => ((String.ofList (x.value p)).toInt?).getD 0
  | .add a b => x.sum a + x.sum b
  | .sub a b => x.sum a - x.sum b
  | .mul a b => x.sum a * x.sum b

end Scope

/-! ## Fields -/

/-- A character of a word. One that is quoted is not special in a pattern. -/
structure Letter where
  char : Char
  quoted : Bool
deriving DecidableEq, Repr

inductive Mark
  | letter (l : Letter)
  /-- Here is a field, even if it is empty. -/
  | edge
  /-- Here a field ends. -/
  | cut
deriving DecidableEq, Repr

def written (quoted : Bool) (s : Text) : List Mark :=
  s.map fun c => .letter ⟨c, quoted⟩

/-- The marks of a value, which is split if it is not quoted. -/
def computed (quoted : Bool) (s : Text) : List Mark :=
  if quoted then written true s
  else s.map fun c => if isSpaceOrEnd c then .cut else .letter ⟨c, false⟩

def Piece.marks (x : Scope) : Piece → List Mark
  | .text quoted s => if quoted then .edge :: written true s else written false s
  | .param quoted .every =>
    let field (s : Text) : List Mark :=
      if quoted then .edge :: written true s else computed false s
    [Mark.cut].intercalate (x.args.map field)
  | .param quoted p => computed quoted (x.value p)
  | .trimmed quoted p pattern => computed quoted (pattern.trimEnd (x.value p))
  | .sum quoted e => computed quoted (toString (x.sum e)).toList

/-- The fields that are complete, and the one that has begun. -/
structure Fields where
  complete : List (List Letter) := []
  begun : Option (List Letter) := none

namespace Fields

def put (f : Fields) : Mark → Fields
  | .letter l => { f with begun := some (f.begun.getD [] ++ [l]) }
  | .edge => { f with begun := some (f.begun.getD []) }
  | .cut => { complete := f.complete ++ f.begun.toList }

def all (f : Fields) : List (List Letter) :=
  f.complete ++ f.begun.toList

end Fields

/-- The fields of a word. A word that is only all arguments in quotes has none if there
are no arguments. -/
def Scope.fields (x : Scope) (w : Word) : List (List Letter) :=
  let isEvery := w == [.text true [], .param true .every]
  let marks := if isEvery then Piece.marks x (.param true .every) else w.flatMap (·.marks x)
  (marks.foldl Fields.put {}).all

/-! ## Paths -/

def plainText (ls : List Letter) : Text :=
  ls.map (·.char)

def hasWildcard (ls : List Letter) : Bool :=
  ls.any fun l => !l.quoted && (l.char == '*' || l.char == '?')

def patternOf (ls : List Letter) : Pattern :=
  ls.flatMap fun l => if l.quoted then [.one l.char] else Pattern.read [l.char]

/-- The names in a directory that a pattern matches. A dot in front has to be written. -/
def matchingNames (t : Tree) (dir : Text) (ls : List Letter) : List Text :=
  let dir := if dir.isEmpty then ['.'] else dir
  match t.openRead (Octets.bytes dir) with
  | .error _ => []
  | .ok l =>
    let hidden := ls.head?.any (·.char == '.')
    let names := (t.namesIn l).map Octets.text
    names.filter fun name => (hidden || name.head? != some '.') && (patternOf ls).fits name

/-- The paths that the components of a pattern lead to, after a path that is known. -/
def matchingPaths (t : Tree) (before : Text) : List (List Letter) → List Text
  | [] => []
  | [c] =>
    let names := if hasWildcard c then matchingNames t before c else [plainText c]
    (names.map (before ++ ·)).filter fun p => (t.openRead (Octets.bytes p)).toOption.isSome
  | c :: cs =>
    let names := if hasWildcard c then matchingNames t before c else [plainText c]
    names.flatMap fun name => matchingPaths t (before ++ name ++ ['/']) cs

/-- What a field comes to: the paths that match it in order, or itself. -/
def pathsOf (t : Tree) (ls : List Letter) : List Text :=
  if hasWildcard ls then
    match matchingPaths t [] (ls.splitOnP (·.char == '/')) with
    | [] => [plainText ls]
    | paths => paths.mergeSort fun p q => !(q < p)
  else [plainText ls]

/-- What words come to. -/
def Scope.expand (x : Scope) (t : Tree) (ws : List Word) : List Text :=
  ws.flatMap fun w => (x.fields w).flatMap (pathsOf t)

end StoreLog.Host
