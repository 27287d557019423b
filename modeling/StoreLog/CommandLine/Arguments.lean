-- SUMMARY: Reading of command lines: flags, values and operands, accepted or refused.
import StoreLog.Path

/-!
# Arguments

How the arguments of a command are read. Options have a letter and a name, and
letters can be joined behind one dash. After two dashes every argument is an
operand. Arguments are read from the left; the first one that is refused or that
asks for the version decides.
-/

namespace StoreLog.CommandLine

/-- An option that can be chosen. One that takes no value is a flag. -/
structure Choice where
  letter : UInt8
  name : Bytes
  takesValue : Bool
deriving DecidableEq, Repr

/-- What one or two arguments say. -/
inductive Item
  | flag (choice : Choice)
  | setting (choice : Choice) (value : Path)
  | operand (value : Path)
  | version
  | refused
deriving DecidableEq, Repr

def dash : UInt8 := 0x2D

def equals : UInt8 := 0x3D

def versionLetter : UInt8 := 0x56

def versionName : Bytes := Path.ofText "version".toList

/-! ## One argument -/

/-- What an argument is seen to be. -/
inductive Shape
  | items (is : List Item)
  /-- The value of an option is the next argument. -/
  | wantsValue (is : List Item) (choice : Choice)
  | operandsFollow
deriving DecidableEq, Repr

def Shape.after (i : Item) : Shape → Shape
  | .items is => .items (i :: is)
  | .wantsValue is choice => .wantsValue (i :: is) choice
  | .operandsFollow => .operandsFollow

/-- Drop one leading equals sign. -/
def dropEquals : Bytes → Bytes
  | [] => []
  | b :: s => if b = equals then s else b :: s

/-- Letters behind one dash. What follows the letter of an option that takes a
value is its value. -/
def letters (choices : List Choice) : Bytes → Shape
  | [] => .items []
  | b :: s =>
    if b = versionLetter then .items [.version]
    else
      match choices.find? (·.letter == b) with
      | none => .items [.refused]
      | some c =>
        if c.takesValue then
          if s.isEmpty then .wantsValue [] c else .items [.setting c (dropEquals s)]
        else (letters choices s).after (.flag c)

/-- A name behind two dashes, with or without a value. -/
def named (choices : List Choice) (s : Bytes) : Shape :=
  let name := s.takeWhile (· != equals)
  let value := if equals ∈ s then some (dropEquals (s.dropWhile (· != equals))) else none
  if name = versionName then
    match value with
    | none => .items [.version]
    | some _ => .items [.refused]
  else
    match choices.find? (·.name == name), value with
    | none, _ => .items [.refused]
    | some c, none => if c.takesValue then .wantsValue [] c else .items [.flag c]
    | some c, some v => if c.takesValue then .items [.setting c v] else .items [.refused]

/-- An argument that stands for itself; a single dash does. -/
def isPlain : Bytes → Bool
  | b :: _ :: _ => b != dash
  | _ => true

def shape (choices : List Choice) (arg : Bytes) : Shape :=
  if isPlain arg then .items [.operand arg]
  else if arg = [dash, dash] then .operandsFollow
  else if [dash, dash].isPrefixOf arg then named choices (arg.drop 2)
  else letters choices (arg.drop 1)

/-! ## All arguments -/

/-- What arguments say, while the value of `wanting` may be missing. -/
def items (choices : List Choice) : (wanting : Option Choice) → List Bytes → List Item
  | none, [] => []
  | some _, [] => [.refused]
  | some c, v :: args =>
    if isPlain v then .setting c v :: items choices none args else [.refused]
  | none, arg :: args =>
    match shape choices arg with
    | .items is => is ++ items choices none args
    | .wantsValue is c => is ++ items choices (some c) args
    | .operandsFollow => args.map .operand

/-- What a command is asked to do. -/
structure Selection where
  flags : List Choice := []
  settings : List (Choice × Path) := []
  operands : List Path := []
deriving DecidableEq, Repr

namespace Selection

def has (s : Selection) (c : Choice) : Bool :=
  s.flags.contains c

def value? (s : Selection) (c : Choice) : Option Path :=
  s.settings.lookup c

end Selection

/-- What can be asked of a command: its options, and how many operands it takes if
there is a limit. It always takes one. -/
structure Usage where
  choices : List Choice
  maxOperands : Option Nat := none
deriving DecidableEq, Repr

inductive Reading
  | version
  | refused
  | accepted (s : Selection)
deriving DecidableEq, Repr

namespace Usage

def allowsOperand (u : Usage) (s : Selection) : Bool :=
  match u.maxOperands with
  | none => true
  | some n => s.operands.length < n

/-- Every option is given once at most, and no path is empty. -/
def select (u : Usage) (s : Selection) : List Item → Reading
  | [] => if s.operands.isEmpty then .refused else .accepted s
  | .flag c :: is =>
    if s.has c then .refused else select u { s with flags := s.flags ++ [c] } is
  | .setting c v :: is =>
    if v.isEmpty || (s.value? c).isSome then .refused
    else select u { s with settings := s.settings ++ [(c, v)] } is
  | .operand v :: is =>
    if v.isEmpty || !u.allowsOperand s then .refused
    else select u { s with operands := s.operands ++ [v] } is
  | .version :: _ => .version
  | .refused :: _ => .refused

def read (u : Usage) (args : List Bytes) : Reading :=
  u.select {} (items u.choices none args)

end Usage

end StoreLog.CommandLine
