-- SUMMARY: Paths as bytes: joining, last components, extensions and parents.
import StoreLog.Text.Utf8

/-!
# Paths

A path is a string of bytes. The slash separates its components; what follows the
last component, slashes and components that are a single dot, does not count
when the last component is asked for.
-/

namespace StoreLog

abbrev Path := Bytes

namespace Path

def slash : UInt8 := 0x2F

def dot : UInt8 := 0x2E

def ofText (s : Text) : Path :=
  Utf8.encode s

/-- How a path is shown in a message. -/
def display (p : Path) : String :=
  Utf8.display p

def isAbsolute (p : Path) : Bool :=
  p.head? == some slash

/-! ## Joining -/

/-- The place of `name` under a directory. An absolute name stands for itself. -/
def join (dir name : Path) : Path :=
  if name.isAbsolute then name
  else if dir.isEmpty || dir.getLast? == some slash then dir ++ name
  else dir ++ [slash] ++ name

/-! ## The last component -/

/-- Drop what does not count at the end of a path; the path is given backwards. -/
def dropTail : Bytes → Bytes
  | [] => []
  | [b] => if b = slash then [] else [b]
  | b :: c :: r =>
    if b = slash then dropTail (c :: r)
    else if b = dot ∧ c = slash then dropTail r
    else b :: c :: r

/-- The path up to the end of its last component. -/
def core (p : Path) : Path :=
  (dropTail p.reverse).reverse

/-- The last component of the core. -/
def lastComponent (p : Path) : Bytes :=
  ((core p).reverse.takeWhile (· != slash)).reverse

/-- A component names a file unless it is empty, a single dot or two dots. -/
def isFileName (name : Bytes) : Bool :=
  !name.isEmpty && name != [dot] && name != [dot, dot]

/-- The extension is what follows the last dot of the last component, if that
names a file and more than the dot comes first. -/
def extension? (p : Path) : Option Bytes :=
  let name := lastComponent p
  match name.reverse.dropWhile (· != dot) with
  | [] => none
  | _ :: stem =>
    if stem.isEmpty || !isFileName name then none
    else some (name.reverse.takeWhile (· != dot)).reverse

/-- End the path with the stem of its last component, if that names a file. -/
def endAtStem (p : Path) : Path :=
  if isFileName (lastComponent p) then
    match extension? p with
    | some e => (core p).take ((core p).length - (e.length + 1))
    | none => core p
  else p

/-- Take an extension off. As many bytes as the extension has are cut from the
end, and what is left ends at its stem; that differs from the stem of the whole
path where the cut leaves two dots. -/
def dropExtension (p : Path) : Path :=
  match extension? p with
  | some e => endAtStem (p.take (p.length - e.length))
  | none => endAtStem p

/-! ## Parents -/

/-- The path without its last component. A relative path of one component has
the empty parent; a root and the empty path have none. -/
def parent? (p : Path) : Option Path :=
  if core p = [] then none
  else
    match (core p).reverse.dropWhile (· != slash) with
    | [] => some []
    | r =>
      match dropTail r with
      | [] => some [slash]
      | r' => some r'.reverse

end Path

end StoreLog
