-- SUMMARY: Opening, reading, creating and writing the files of a tree.
import StoreLog.Scan.Source
import StoreLog.Sink
import StoreLog.Tree.Resolve

/-!
# Files of a tree

Opening, reading, creating and writing. A file that is open is known by its
place; what it holds is looked up when it is read, not when it is opened.
-/

namespace StoreLog.Tree

/-! ## Reading -/

/-- Open what a path leads to; directories can be opened, too. -/
def openRead (t : Tree) (p : Path) : Except IoError Loc :=
  match t.resolve .target p with
  | .error e => .error e
  | .ok (.vacant ..) => .error (.os .notFound)
  | .ok (.found l) => .ok l

/-- What reading an open place gives. A directory cannot be read. -/
def sourceAt (t : Tree) (l : Loc) : Source :=
  match t.entryAt l with
  | some (.file content _) => { content }
  | some .dir => { content := [], fault := some (.os .isDirectory) }
  | _ => { content := [] }

def source (t : Tree) (p : Path) : Except IoError Source :=
  (t.openRead p).map t.sourceAt

/-- The whole content of a file. -/
def read (t : Tree) (p : Path) : Except IoError Bytes :=
  match t.source p with
  | .error e => .error e
  | .ok s =>
    match s.fault with
    | some e => .error e
    | none => .ok s.content

/-- The whole content of a file, as text. -/
def readText (t : Tree) (p : Path) : Except IoError Text :=
  match t.read p with
  | .error e => .error e
  | .ok bytes =>
    match Utf8.decode bytes with
    | none => .error .notUtf8
    | some s => .ok s

/-! ## Writing -/

/-- Create a file, or empty the one that is there. -/
def create (t : Tree) (p : Path) : Except IoError (Tree × Loc) :=
  match t.resolve .creation p with
  | .error e => .error e
  | .ok (.vacant dir name) => .ok (t.put (name :: dir) (.file []), name :: dir)
  | .ok (.found l) =>
    match t.entryAt l with
    | some .dir => .error (.os .isDirectory)
    | some (.device _) => .ok (t, l)
    | some (.file _ executable) => .ok (t.put l (.file [] executable), l)
    | _ => .ok (t.put l (.file []), l)

/-- Where the bytes go that are written to an open file. -/
def sinkAt (t : Tree) (l : Loc) : Sink :=
  if t.entryAt l = some (.device .full) then .full else .unlimited

/-- Leave what a sink has taken in the file it belongs to. -/
def commit (t : Tree) (l : Loc) (s : Sink) : Tree :=
  match t.entryAt l with
  | some (.file _ executable) => t.put l (.file s.written executable)
  | _ => t

/-- Create a file and carry out a writer's acts on it. -/
def write (t : Tree) (p : Path) (acts : List Act) : Tree × Except IoError Unit :=
  match t.create p with
  | .error e => (t, .error e)
  | .ok (t, l) =>
    let r := (t.sinkAt l).perform acts
    (t.commit l r.sink.close,
      match r.fault with
      | some e => .error e
      | none => .ok ())

end StoreLog.Tree
