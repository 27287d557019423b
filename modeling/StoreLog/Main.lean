-- SUMMARY: The executable: the real file tree and the host's commands behind the two tools.
import StoreLog.CommandLine.Tool
import StoreLog.Host.Start

/-!
# The command line

The first argument names the tool and the others are its own. A tool works on a
copy of the files that its arguments name; what has changed there is written back,
and the log goes to the error stream.
-/

namespace StoreLog.CommandLine

/-- A tree whose work directory is at an absolute path. -/
def treeAt (dir : Path) : Tree :=
  let (t, _) := Host.tree.makePath dir
  { t with workDir := dir.components.reverse }

/-- The paths that a tool reads by itself. -/
def inputs (env : Environment) : Reading → List Path
  | .accepted s => (PlatformPaths.resolve env.dirs).configFile :: s.settings.map (·.2) ++ s.operands
  | _ => []

/-- The stores that a manifest among the operands lists; commands may read them. -/
def stores (tool : Tool) (t : Tree) : Reading → List Path
  | .accepted s =>
    if tool = .dumpIndexes then
      s.operands.flatMap fun p =>
        match t.readText p with
        | .ok content => (Manifest.parse content).map fun e => Path.ofText e.source
        | .error _ => []
    else []
  | _ => []

def logLine (e : Event) : String :=
  " ".intercalate ([e.level.name, e.message] ++ e.fields.map fun (k, v) => k ++ "=" ++ v)

/-- Copy what is at a path into a tree. -/
def takeOver (t : Tree) (p : Path) : IO Tree := do
  try
    let content ← IO.FS.readBinFile p.display
    return t.plant p (.file content.toList)
  catch
    | .inappropriateType .. => return (t.makePath p).1
    | _ => return t

/-- Write back what has changed. -/
def writeBack (before after : Tree) : IO Unit := do
  for (l, e) in after.entries.entries do
    if before.entryAt l != some e then
      let path := Path.display (Path.slash :: Tree.pathOf l.reverse)
      match e with
      | .file content _ => IO.FS.writeBinFile path ⟨content.toArray⟩
      | .dir => IO.FS.createDirAll path
      | _ => pure ()

def environment : IO Environment := do
  let path (name : String) : IO (Option Path) := do
    return (← IO.getEnv name).map fun s => Path.ofText s.toList
  let home := (← path "HOME").filter fun p => !p.isEmpty
  let configHome ← path "XDG_CONFIG_HOME"
  return {
    dirs := home.map fun home => { home, configHome }
    logLevel := (← IO.getEnv "RUST_LOG").map (·.toList) }

def runTool (tool : Tool) (args : List Bytes) : IO UInt32 := do
  let env ← environment
  let dir ← IO.currentDir
  let reading := tool.usage.read args
  let t ← (inputs env reading).foldlM takeOver (treeAt (Path.ofText dir.toString.toList))
  let before ← (stores tool t reading).foldlM takeOver t
  let home := env.dirs.map fun dirs => Utf8.decodeLossy dirs.home
  let runner := Host.runner (Host.environment home env.logLevel)
  let session := run tool runner env args before
  writeBack before session.tree
  for e in session.log do
    IO.eprintln (logLine e)
  IO.eprint (Utf8.display session.printed.err)
  (← IO.getStdout).write ⟨session.printed.out.toArray⟩
  return session.exit.toUInt32

end StoreLog.CommandLine

open StoreLog CommandLine in
def main (args : List String) : IO UInt32 := do
  match args with
  | [] => return 2
  | name :: args =>
    match Tool.ofName? name.toList with
    | none => return 2
    | some tool => runTool tool (args.map fun a => Utf8.encode a.toList)
