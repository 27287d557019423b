-- SUMMARY: The two tools as functions of their arguments, with what they print and their exit codes.
import StoreLog.CommandLine.Arguments
import StoreLog.Config.Load
import StoreLog.Dump.Run
import StoreLog.Log.Process
import StoreLog.Printed

/-!
# The two tools

`process_logs` processes the logs that it is given; `dump_indexes` dumps the stores
of a manifest. Both load a configuration, say which events they log, do their
work, and end with an exit code.
-/

namespace StoreLog.CommandLine

inductive Tool
  | processLogs
  | dumpIndexes
deriving DecidableEq, Repr

namespace Tool

def all : List Tool := [.processLogs, .dumpIndexes]

def name : Tool → String
  | .processLogs => "process_logs"
  | .dumpIndexes => "dump_indexes"

def ofName? (s : Text) : Option Tool :=
  all.find? (·.name.toList == s)

end Tool

def application : String := "gridstore-tools"

def version : String := "0.3.0"

/-! ## Options -/

namespace Choice

def keepGoing : Choice := ⟨0x6B, Path.ofText "keep-going".toList, false⟩

def config : Choice := ⟨0x63, Path.ofText "config".toList, true⟩

def debug : Choice := ⟨0x64, Path.ofText "debug".toList, false⟩

def outputDir : Choice := ⟨0x6F, Path.ofText "output-dir".toList, true⟩

end Choice

def Tool.usage : Tool → Usage
  | .processLogs => { choices := [.keepGoing, .config, .debug] }
  | .dumpIndexes => { choices := [.outputDir, .config, .debug], maxOperands := some 1 }

/-! ## Logging -/

/-- What a tool is told by its surroundings. -/
structure Environment where
  /-- The directories of the user, if the system knows them. -/
  dirs : Option UserDirs
  /-- A level that takes precedence over every other. -/
  logLevel : Option Text := none
deriving DecidableEq, Repr

/-- The least severe level that is logged, if any is. An empty level in the
environment leaves errors only, and `off` nothing. -/
def threshold (env : Environment) (debug : Bool) (configured : Option Text) : Option Level :=
  match env.logLevel with
  | some [] => some .error
  | some s => Level.ofName? s
  | none => if debug then some .debug else some ((configured.bind Level.ofName?).getD .info)

/-! ## Sessions -/

/-- What a tool leaves behind. -/
structure Session where
  tree : Tree
  exit : Nat := 0
  printed : Printed := {}
  log : List Event := []

namespace Session

/-- Events before those of the session. -/
def after (events : List Event) (s : Session) : Session :=
  { s with log := events ++ s.log }

/-- Keep the events up to a level. -/
def upTo (level : Option Level) (s : Session) : Session :=
  { s with log := Event.upTo level s.log }

/-- Print messages about errors after all else, and end in failure. -/
def fail (messages : List String) (s : Session) : Session :=
  let lines := messages.flatMap fun m => ("Error: " ++ m ++ "\n").toList
  { s with exit := 1, printed := { s.printed with err := s.printed.err ++ Utf8.encode lines } }

end Session

def started : Event :=
  .loggingStarted application version

def processLogs (scan : ScanSettings) (s : Selection) (t : Tree) : Session :=
  let policy := if s.has .keepGoing then .keepGoing else .failFast
  let w := Log.processAll scan policy t s.operands
  let events := .processStarting version s.operands.length policy :: w.events
  match w.result with
  | .error e =>
    ({ tree := w.tree, log := events ++ [.processAborted e] } : Session).fail [e.message]
  | .ok report =>
    if report.hasFailures then
      ({ tree := w.tree, log := events } : Session).fail
        (report.failed.map fun (p, e) => s!"{p.display}: {e.message}")
    else { tree := w.tree, log := events ++ [.allProcessed report.processed.length] }

def dumpIndexes (run : Runner Printed) (dump : DumpConfig) (s : Selection) (t : Tree) : Session :=
  let dump := { dump with outputDir := (s.value? .outputDir).getD dump.outputDir }
  let manifest := s.operands.headD []
  let d := Dump.run run dump manifest t {}
  let events := .dumpStarting version manifest dump.program dump.outputDir :: d.work.events
  match d.work.result with
  | .error e =>
    ({ tree := d.work.tree, printed := d.state, log := events ++ [.dumpAborted e] } : Session).fail
      [e.message]
  | .ok _ => { tree := d.work.tree, printed := d.state, log := events }

/-- Do what is selected. What is said while the configuration is loaded is not
logged, as its log level is not yet known. -/
def perform (tool : Tool) (run : Runner Printed) (env : Environment) (s : Selection)
    (t : Tree) : Session :=
  let debug := s.has .debug
  match (Config.loadFor t env.dirs (s.value? .config)).result with
  | .error e =>
    (({ tree := t, log := [started, .configFailed e] } : Session).fail [e.headline]).upTo
      (threshold env debug none)
  | .ok loaded =>
    let session :=
      match tool with
      | .processLogs => processLogs loaded.config.scan s t
      | .dumpIndexes => dumpIndexes run loaded.config.dump s t
    (session.after (started :: loaded.warnings.map .configWarning)).upTo
      (threshold env debug loaded.config.logLevel)

/-- Run a tool on its arguments. -/
def run (tool : Tool) (runner : Runner Printed) (env : Environment) (args : List Bytes)
    (t : Tree) : Session :=
  match tool.usage.read args with
  | .refused => { tree := t, exit := 2 }
  | .version =>
    { tree := t, printed := { out := Utf8.encode s!"{tool.name} {version}\n".toList } }
  | .accepted s => perform tool runner env s t

end StoreLog.CommandLine
