-- SUMMARY: Where a path leads, through directories and links.
import StoreLog.IoError
import StoreLog.Tree.Basic

/-!
# Resolving paths

Where a path leads: component by component from the root or the work directory,
through symbolic links. Every component but the last has to be a directory; the
last one may be missing, which a path that is to be created needs.

`stride` goes as far as the next link that has to be followed, and `walk` follows
up to a given number of links.
-/

namespace StoreLog

/-- What a path is resolved for. -/
inductive Aim
  /-- What has the path as its own name, be it a link. -/
  | entry
  /-- What the path leads to. -/
  | target
  /-- What the path leads to or, if nothing is there, a new file. -/
  | creation
deriving DecidableEq, Repr

namespace Path

/-- The components between the slashes, the empty ones left out. -/
def components (p : Path) : List Name :=
  (p.splitOn slash).filter (!·.isEmpty)

def endsWithSlash (p : Path) : Bool :=
  p.getLast? == some slash

/-- The component that stands for a slash at the end. It asks for a directory, as a
dot would; a new file can have none, which the empty component tells. -/
def finalStep : Aim → Name
  | .creation => []
  | _ => [dot]

/-- The components of a path that is resolved. -/
def steps (aim : Aim) (p : Path) : List Name :=
  if p.endsWithSlash then components p ++ [finalStep aim] else components p

end Path

namespace Tree

/-- Where a path leads. -/
inductive Place
  /-- Something is at this place. -/
  | found (l : Loc)
  /-- Nothing has this name in this directory. -/
  | vacant (dir : Loc) (name : Name)
deriving DecidableEq, Repr

inductive Halt
  | place (p : Place)
  /-- A link in a directory, and the components that come after it. -/
  | link (dir : Loc) (target : Path) (rest : List Name)
deriving DecidableEq, Repr

/-- How many bytes a name may have. -/
def maxName : Nat := 255

/-- Go from a place along components. -/
def stride (t : Tree) (aim : Aim) (l : Loc) : List Name → Except OsError Halt
  | [] => .ok (.place (.found l))
  | c :: cs =>
    if t.entryAt l ≠ some .dir then .error .notDirectory
    else if cs = [[]] then .error .isDirectory
    else if c = [] ∨ c = [Path.dot] then stride t aim l cs
    else if c = [Path.dot, Path.dot] then stride t aim l.tail cs
    else if maxName < c.length then .error .nameTooLong
    else
      match t.entryAt (c :: l) with
      | none => if cs.isEmpty then .ok (.place (.vacant l c)) else .error .notFound
      | some (.link target) =>
        if cs.isEmpty ∧ aim = .entry then .ok (.place (.found (c :: l)))
        else .ok (.link l target cs)
      | some _ => stride t aim (c :: l) cs

/-- The place where a path starts that stands in a directory. -/
def startOf (p : Path) (dir : Loc) : Loc :=
  if p.isAbsolute then [] else dir

/-- Go along components, through at most `links` links. -/
def walk (t : Tree) (aim : Aim) : (links : Nat) → Loc → List Name → Except OsError Place
  | links, l, cs =>
    match t.stride aim l cs with
    | .error e => .error e
    | .ok (.place p) => .ok p
    | .ok (.link dir target rest) =>
      match links with
      | 0 => .error .tooManyLinks
      | links + 1 => walk t aim links (startOf target dir) (target.steps aim ++ rest)

/-- How many links a path may lead through. -/
def maxLinks : Nat := 40

def isNul (b : UInt8) : Bool :=
  b == 0

/-- How many bytes a path may have. -/
def maxPath : Nat := 4095

/-- Why a string of bytes is no path at all, if it is none. -/
def fault? (p : Path) : Option IoError :=
  if p.any isNul then some .nulInPath
  else if maxPath < p.length then some (.os .nameTooLong)
  else if p.isEmpty then some (.os .notFound)
  else none

/-- Where the given components of a path lead. -/
def resolveSteps (t : Tree) (aim : Aim) (p : Path) (steps : List Name) : Except IoError Place :=
  match fault? p with
  | some e => .error e
  | none => (t.walk aim maxLinks (startOf p t.workDir) steps).mapError .os

/-- Where a path leads. -/
def resolve (t : Tree) (aim : Aim) (p : Path) : Except IoError Place :=
  t.resolveSteps aim p (p.steps aim)

end Tree

end StoreLog
