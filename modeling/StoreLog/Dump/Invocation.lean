-- SUMMARY: The command for a store: its program, its arguments and the path it dumps to.
import StoreLog.Manifest
import StoreLog.Path

/-!
# Dump invocations

The command that dumps a store: the configured program with the configured
arguments, the store, and the file that the dump goes to. That file lies in the
output directory and is named after the last segment of the store's path, with
the store extension replaced by the data extension.
-/

namespace StoreLog

structure DumpConfig where
  program : Text
  /-- The arguments before the two paths. -/
  args : List Text
  outputDir : Path
  storeExtension : Text
  dataExtension : Text
deriving DecidableEq, Repr

def DumpConfig.default : DumpConfig where
  program := "cargo".toList
  args := ["run".toList, "--release".toList, "--bin".toList, "dump_store".toList]
  outputDir := Path.ofText "out".toList
  storeExtension := ".rocksdb".toList
  dataExtension := ".dat".toList

instance : Inhabited DumpConfig := ⟨.default⟩

/-- A command with its arguments. -/
structure Invocation where
  program : Text
  args : List Bytes
deriving DecidableEq, Repr

/-- The command on one line, as an event shows it. -/
def Invocation.display (i : Invocation) : String :=
  i.args.foldl (fun s arg => s ++ " " ++ Utf8.display arg) (String.ofList i.program)

namespace Dump

/-- What follows the last slash of a path, slashes at its end not counted. -/
def lastSegment (source : Text) : Text :=
  ((source.reverse.dropWhile (· == '/')).takeWhile (· != '/')).reverse

/-- The name of the file that a store is dumped to. -/
def fileName (config : DumpConfig) (source : Text) : Text :=
  let segment := lastSegment source
  match config.storeExtension.isSuffixOf? segment with
  | some stem => stem ++ config.dataExtension
  | none => segment

def outputPath (config : DumpConfig) (source : Text) : Path :=
  config.outputDir.join (Path.ofText (fileName config source))

def invocation (config : DumpConfig) (source : Text) : Invocation where
  program := config.program
  args := config.args.map Utf8.encode ++ [Utf8.encode source, outputPath config source]

end Dump

end StoreLog
