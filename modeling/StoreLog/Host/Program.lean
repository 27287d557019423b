-- SUMMARY: The programs of a host, as functions on a tree.
import StoreLog.Host.Machine
import StoreLog.Tree.Directories
import StoreLog.Tree.Files

/-!
# Programs

The few programs that a host has. Each is a function of its arguments and a tree; it
prints, may change the tree, and ends with an exit code. A program knows no options but
those that are said here, and any other argument with a dash in front is one that it does
not know.
-/

namespace StoreLog.Host

/-- What a program leaves. -/
structure Ended where
  tree : Tree
  out : Text := []
  err : Text := []
  code : Nat := 0

abbrev Program := List Text → Tree → Ended

namespace Ended

/-- Go on with what has been left. Of two exit codes, the greater one counts. -/
def andThen (e : Ended) (next : Tree → Ended) : Ended :=
  let f := next e.tree
  ⟨f.tree, e.out ++ f.out, e.err ++ f.err, max e.code f.code⟩

/-- Print, and leave the tree as it is. -/
def printing (s : Text) (t : Tree) : Ended :=
  { tree := t, out := s }

def failing (message : String) (code : Nat := 1) (t : Tree) : Ended :=
  { tree := t, err := message.toList ++ ['\n'], code }

end Ended

namespace Program

open Ended

/-! ## Operands -/

def isOption : Text → Bool
  | '-' :: _ :: _ => true
  | _ => false

/-- Do something for every operand. -/
def forOperands (code : Nat) (act : Text → Tree → Ended) : Program := fun args t =>
  if args.any isOption then failing "unknown option" code t
  else args.foldl (fun e a => e.andThen (act a)) { tree := t }

/-- Do something for every operand, of which there has to be one. -/
def forOperandsOf (code : Nat) (act : Text → Tree → Ended) : Program := fun args t =>
  if args.isEmpty then failing "missing operand" code t else forOperands code act args t

/-- What to leave where the tree has changed, or could not be. -/
def ofResult {ε : Type} (t : Tree) : Except ε Tree → Ended
  | .ok u => { tree := u }
  | .error _ => failing "cannot change the tree" 1 t

/-- The path of what is put at another one: inside, if that is a directory. -/
def destination (t : Tree) (source target : Path) : Path :=
  if t.isDir target then target.join ((Path.components source).getLast?.getD []) else target

/-! ## Files -/

def cat : Program :=
  forOperands 1 fun a t =>
    match t.read (Octets.bytes a) with
    | .ok content => printing (Octets.text content) t
    | .error _ => failing "cannot read" 1 t

/-- Write what one path leads to where another one leads. -/
def copy (source target : Path) (t : Tree) : Ended :=
  let target := destination t source target
  match t.openRead source with
  | .error _ => failing "no such file" 1 t
  | .ok l =>
    if t.entryAt l = some .dir ∨ (t.openRead target).toOption = some l then
      failing "cannot copy" 1 t
    else
      match t.entryAt l, t.create target with
      | _, .error _ => failing "cannot create" 1 t
      | some (.program name), .ok (t, l) => { tree := t.put l (.program name) }
      | _, .ok _ =>
        let (u, _) := t.write target [.write (t.sourceAt l).content]
        { tree := u }

def cp : Program
  | [source, target], t =>
    if isOption source || isOption target then failing "unknown option" 1 t
    else copy (Octets.bytes source) (Octets.bytes target) t
  | _, t => failing "two operands expected" 1 t

/-- The program `ln`, for symbolic links only. -/
def ln : Program
  | [['-', 's'], target, link], t =>
    let link := destination t (Octets.bytes target) (Octets.bytes link)
    match t.resolve .entry link with
    | .ok (.vacant dir name) => { tree := t.put (name :: dir) (.link (Octets.bytes target)) }
    | _ => failing "cannot link" 1 t
  | _, t => failing "no symbolic link asked for" 1 t

/-! ## Directories -/

def mkdir : Program :=
  forOperandsOf 1 fun a t =>
    let p := Octets.bytes a
    ofResult t (t.makeDir (Tree.startOf p t.workDir) (Path.components p))

def rmdir : Program :=
  forOperandsOf 1 fun a t =>
    match t.resolve .entry (Octets.bytes a) with
    | .ok (.found l) =>
      if t.entryAt l = some .dir ∧ t.namesIn l = [] then { tree := t.remove l }
      else failing "no empty directory" 1 t
    | _ => failing "no such directory" 1 t

/-- The program `ls`, which prints the names in directories, hidden ones left out. -/
def ls : Program := fun args t =>
  let list (a : Text) (t : Tree) : Ended :=
    match t.openRead (Octets.bytes a) with
    | .error _ => failing "no such file" 2 t
    | .ok l =>
      let names := if t.entryAt l = some .dir then
          ((t.namesIn l).filter (·.head? ≠ some Path.dot)).map Octets.text
        else [a]
      printing (names.flatMap (· ++ ['\n'])) t
  forOperands 2 list (if args.isEmpty then [['.']] else args) t

/-! ## Printing -/

/-- Replace a backslash and a letter by the character that they stand for. -/
def unescaped : Text → Text
  | '\\' :: 'n' :: s => '\n' :: unescaped s
  | '\\' :: 't' :: s => '\t' :: unescaped s
  | '\\' :: 'r' :: s => '\r' :: unescaped s
  | '\\' :: '\\' :: s => '\\' :: unescaped s
  | c :: s => c :: unescaped s
  | [] => []

/-- The program `echo`, with a change of the text before it is printed. -/
def echoing (change : Text → Text) : Program
  | ['-', 'n'] :: args, t => printing (change ([' '].intercalate args)) t
  | args, t => printing (change ([' '].intercalate args) ++ ['\n']) t

/-- Put arguments into a format in which all directives are for texts. A missing argument
is empty. -/
def formatted : Text → List Text → Text × List Text
  | '%' :: '%' :: s, args => let (r, rest) := formatted s args; ('%' :: r, rest)
  | '%' :: 's' :: s, args =>
    let (r, rest) := formatted s args.tail
    (args.headD [] ++ r, rest)
  | c :: s, args => let (r, rest) := formatted s args; (c :: r, rest)
  | [], args => ([], args)

/-- Go through a format again until every argument has been used. -/
def formattedAll (format : Text) : Nat → List Text → Text
  | 0, _ => []
  | n + 1, args =>
    let (s, rest) := formatted format args
    if rest.isEmpty || rest.length = args.length then s else s ++ formattedAll format n rest

def printf : Program
  | [], t => failing "missing format" 2 t
  | format :: args, t => printing (formattedAll (unescaped format) (args.length + 1) args) t

/-! ## Tests -/

def isFileAt (t : Tree) (a : Text) : Bool :=
  match t.openRead (Octets.bytes a) with
  | .ok l => t.entryAt l != some .dir
  | .error _ => false

/-- Whether a test holds; none if it makes no sense. -/
def holds? (t : Tree) : List Text → Option Bool
  | [] => some false
  | [s] => some !s.isEmpty
  | [op, s] =>
    match String.ofList op with
    | "-n" => some !s.isEmpty
    | "-z" => some s.isEmpty
    | "-d" => some (t.isDir (Octets.bytes s))
    | "-f" => some (isFileAt t s)
    | "-e" => some (isFileAt t s || t.isDir (Octets.bytes s))
    | "!" => some s.isEmpty
    | _ => none
  | [a, op, b] =>
    match String.ofList op with
    | "=" => some (a == b)
    | "!=" => some (a != b)
    | _ => if a = ['!'] then (holds? t [op, b]).map not else none
  | _ => none

/-- The program `test`. A test that makes no sense has an exit code of its own. -/
def test : Program := fun args t =>
  match holds? t args with
  | some true => { tree := t }
  | some false => { tree := t, code := 1 }
  | none => failing "test expected" 2 t

/-- The other spelling of `test`, which ends with a bracket. -/
def bracket : Program := fun args t =>
  if args.getLast? = some [']'] then test args.dropLast t else failing "missing ]" 2 t

/-! ## All programs -/

def quiet (code : Nat) : Program := fun _ t => { tree := t, code }

def all : List (String × Program) := [
  ("[", bracket), ("cat", cat), ("cp", cp), ("echo", echoing id), ("false", quiet 1), ("ln", ln),
  ("ls", ls), ("mkdir", mkdir), ("printf", printf), ("rmdir", rmdir), ("test", test),
  ("true", quiet 0)]

def named? (programs : List (String × Program)) (name : Text) : Option Program :=
  (programs.find? (·.1.toList == name)).map (·.2)

end Program

/-- Run a program as a process. Output that cannot be written is a failure. -/
def Machine.run (m : Machine) (program : Program) (launch : Launch) : Machine × Nat :=
  let e := program launch.args m.tree
  let (m, written) := ({ m with tree := e.tree } : Machine).write launch.out e.out
  let (m, _) := m.write launch.err e.err
  (m, if written then e.code else max e.code 1)

end StoreLog.Host
