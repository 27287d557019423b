-- SUMMARY: Making directories, and setting a tree up.
import StoreLog.Tree.Resolve
import StoreLog.Tree.Work

/-!
# Directories of a tree

Making a directory with those around it, and the operations that set a tree up.
-/

namespace StoreLog.Tree

def isDir (t : Tree) (p : Path) : Bool :=
  match t.resolve .target p with
  | .ok (.found l) => t.entryAt l == some .dir
  | _ => false

/-- The names in a directory, in order. -/
def namesIn (t : Tree) (l : Loc) : List Name :=
  t.entries.entries.filterMap fun (x, _) =>
    match x with
    | name :: dir => if dir = l then some name else none
    | [] => none

/-! ## Single directories -/

/-- Make the directory that components lead to. A link in its place is in the way,
wherever it leads. -/
def makeDir (t : Tree) (start : Loc) (cs : List Name) : Except OsError Tree :=
  match t.walk .entry maxLinks start cs with
  | .error e => .error e
  | .ok (.found _) => .error .alreadyExists
  | .ok (.vacant dir name) => .ok (t.put (name :: dir) .dir)

def isDirAt (t : Tree) (start : Loc) (cs : List Name) : Bool :=
  match t.walk .target maxLinks start cs with
  | .ok (.found l) => t.entryAt l == some .dir
  | _ => false

/-- A directory that is there already is as good as one that is made. -/
def makeDirOrKeep (t : Tree) (start : Loc) (cs : List Name) : Tree × Except OsError Unit :=
  match t.makeDir start cs with
  | .ok t => (t, .ok ())
  | .error e => (t, if t.isDirAt start cs then .ok () else .error e)

/-! ## Directories with those around them -/

/-- Make a directory; if the one around it is missing, after making that. -/
def makeAfter (t : Tree) (start : Loc) (cs : List Name)
    (around : Tree → Tree × Except OsError Unit) : Tree × Except OsError Unit :=
  match t.makeDir start cs with
  | .error .notFound =>
    match around t with
    | (t, .error e) => (t, .error e)
    | (t, .ok ()) => t.makeDirOrKeep start cs
  | _ => t.makeDirOrKeep start cs

/-- Make a directory and all around it; its components are given from the inside
out. -/
def makeAll (start : Loc) : List Name → Tree → Tree × Except OsError Unit
  | [], t => (t, .ok ())
  | c :: cs, t => t.makeAfter start (c :: cs).reverse (makeAll start cs)

/-- Make the directory of a path and all around it. Components that are a dot are
none of the directories around it. The empty path needs none. -/
def makePath (t : Tree) (p : Path) : Tree × Except IoError Unit :=
  if p.isEmpty then (t, .ok ())
  else
    match fault? p with
    | some e => (t, .error e)
    | none =>
      let start := startOf p t.workDir
      let around := (p.components.filter (· ≠ [Path.dot])).reverse.tail
      let (t, r) := t.makeAfter start p.components (makeAll start around)
      (t, r.mapError .os)

/-- Make sure that a directory is there. The empty path needs none. -/
def ensureDir (t : Tree) (p : Path) : Work IoError Unit :=
  if p.isEmpty || t.isDir p then ⟨t, [], .ok ()⟩
  else
    let (t, r) := t.makePath p
    ⟨t, [.creatingDirectory p], r⟩

/-! ## Setting up -/

/-- Put an entry at a path, with the directories around it. A link comes in the
place of another; all else goes to where that one leads. -/
def plant (t : Tree) (p : Path) (e : Entry) : Tree :=
  let (t, _) := t.makePath ((p.parent?).getD [])
  match t.resolve (if e.isLink then .entry else .target) p with
  | .ok (.vacant dir name) => t.put (name :: dir) e
  | .ok (.found l) => t.put l e
  | .error _ => t

/-- Remove what is at a path; a link itself, not what it leads to. -/
def uproot (t : Tree) (p : Path) : Tree :=
  match t.resolve .entry p with
  | .ok (.found l) => t.remove l
  | _ => t

end StoreLog.Tree
