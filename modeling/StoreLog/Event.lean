-- SUMMARY: What is logged, with the level, the message and the fields of each event.
import StoreLog.Failure

/-!
# Events

What the library has to say about its work, as data. An event has a level, a
message and named fields; a reader asks for the events up to some level.
-/

namespace StoreLog

inductive Level
  | error
  | warn
  | info
  | debug
  | trace
deriving DecidableEq, Repr

namespace Level

def all : List Level := [.error, .warn, .info, .debug, .trace]

def name : Level → String
  | .error => "ERROR"
  | .warn => "WARN"
  | .info => "INFO"
  | .debug => "DEBUG"
  | .trace => "TRACE"

/-- The more severe a level, the lower its rank. -/
def rank : Level → Nat
  | .error => 0
  | .warn => 1
  | .info => 2
  | .debug => 3
  | .trace => 4

/-- The level of a name in any mix of cases. Only ASCII letters change their case
here: no other letter has one of a level's letters as its lower case. -/
def ofName? (s : Text) : Option Level :=
  all.find? fun l => l.name.toList.map Char.toLower == s.map Char.toLower

end Level

/-- How a payload is shown in an event. -/
def preview (s : Text) : Text :=
  s.take 200

/-- What to do when one of several logs fails. -/
inductive FailurePolicy
  | failFast
  | keepGoing
deriving DecidableEq, Repr

def FailurePolicy.name : FailurePolicy → String
  | .failFast => "FailFast"
  | .keepGoing => "KeepGoing"

inductive Event
  -- Scanning
  | markerFound (file : Path) (line : Nat)
  | phraseMatch (file : Path) (line records : Nat) (payload : Text)
  | markerMissing (file : Path) (marker : Text)
  | logProcessed (file : Path) (lines matchCount paths : Nat) (ljson idx : Path)
  | logFailed (file : Path) (failure : Failure)
  -- Dumping
  | creatingDirectory (dir : Path)
  | manifestLoaded (manifest : Path) (stores : Nat)
  | outputDirMissing (dir : Path) (error : IoError)
  | dumping (source : Text) (output : Path)
  | spawning (command : String)
  | dumpFinished (source : Text)
  | dumpExited (source : Text) (output : Path) (line : Nat) (code : Option Int)
  | dumpNotStarted (source : Text) (program : Text) (error : IoError)
  | dumpsComplete (invoked succeeded failed : Nat)
  -- Configuration
  | pathsResolved (configDir : Path)
  | pathsUnknown
  | configMissing (path : Path)
  | configLoaded (path : Path)
  | configProblem (warning : ConfigWarning)
  -- Commands
  | loggingStarted (app version : String)
  | configFailed (error : ConfigError)
  | configWarning (warning : ConfigWarning)
  | processStarting (version : String) (files : Nat) (policy : FailurePolicy)
  | allProcessed (files : Nat)
  | processAborted (failure : Failure)
  | dumpStarting (version : String) (manifest : Path) (program : Text) (outputDir : Path)
  | dumpAborted (failure : Failure)
deriving DecidableEq, Repr

namespace Event

def level : Event → Level
  | logFailed .. | configFailed _ | processAborted _ | dumpAborted _ => .error
  | markerMissing .. | outputDirMissing .. | dumpExited .. | dumpNotStarted ..
  | pathsUnknown | configProblem _ | configWarning _ => .warn
  | logProcessed .. | manifestLoaded .. | dumping .. | dumpsComplete .. | configLoaded _
  | processStarting .. | allProcessed _ | dumpStarting .. => .info
  | markerFound .. | creatingDirectory _ | spawning _ | dumpFinished _ | pathsResolved _
  | configMissing _ | loggingStarted .. => .debug
  | phraseMatch .. => .trace

def message : Event → String
  | markerFound .. => "Marker found; collecting phrase matches"
  | phraseMatch .. => "Phrase match"
  | markerMissing .. => "Marker line never found; no phrase matches collected"
  | logProcessed .. => "Log processed"
  | logFailed .. => "Failed to process log; continuing with next file"
  | creatingDirectory _ => "Creating directory"
  | manifestLoaded .. => "Manifest loaded"
  | outputDirMissing .. => "Could not create output directory; dumps may fail"
  | dumping .. => "Dumping store"
  | spawning _ => "Spawning"
  | dumpFinished _ => "Dump finished"
  | dumpExited .. => "Dump command exited with failure; continuing"
  | dumpNotStarted .. => "Dump command could not be started; continuing"
  | dumpsComplete .. => "Dump run complete"
  | pathsResolved _ => "Platform paths resolved"
  | pathsUnknown => "Could not determine platform directories, using current directory"
  | configMissing _ => "No config.toml found; using defaults"
  | configLoaded _ => "Loaded config.toml"
  | configProblem warning => warning.message
  | loggingStarted .. => "Logging initialised"
  | configFailed _ => "Failed to load configuration"
  | configWarning _ => "Configuration warning"
  | processStarting .. => "process_logs starting"
  | allProcessed _ => "All logs processed"
  | processAborted _ => "Log processing aborted"
  | dumpStarting .. => "dump_indexes starting"
  | dumpAborted _ => "Dump run failed"

def exitCode : Option Int → String
  | some n => s!"Some({n})"
  | none => "None"

def fields : Event → List (String × String)
  | markerFound file line => [("file", file.display), ("line", toString line)]
  | phraseMatch file line records payload =>
    [("file", file.display), ("line", toString line), ("records", toString records),
      ("payload", String.ofList (preview payload))]
  | markerMissing file marker => [("file", file.display), ("marker", String.ofList marker)]
  | logProcessed file lines matchCount paths ljson idx =>
    [("file", file.display), ("lines", toString lines), ("matches", toString matchCount),
      ("paths", toString paths), ("ljson", ljson.display), ("idx", idx.display)]
  | logFailed file failure => [("file", file.display), ("error", failure.message)]
  | creatingDirectory dir => [("dir", dir.display)]
  | manifestLoaded manifest stores =>
    [("manifest", manifest.display), ("stores", toString stores)]
  | outputDirMissing dir error => [("dir", dir.display), ("error", error.message)]
  | dumping source output => [("source", String.ofList source), ("output", output.display)]
  | spawning command => [("command", command)]
  | dumpFinished source => [("source", String.ofList source)]
  | dumpExited source output line code =>
    [("source", String.ofList source), ("output", output.display),
      ("manifest_line", toString line), ("code", exitCode code)]
  | dumpNotStarted source program error =>
    [("source", String.ofList source), ("program", String.ofList program),
      ("error", error.message)]
  | dumpsComplete invoked succeeded failed =>
    [("invoked", toString invoked), ("succeeded", toString succeeded),
      ("failed", toString failed)]
  | pathsResolved configDir => [("config", configDir.display)]
  | pathsUnknown => []
  | configMissing path => [("path", path.display)]
  | configLoaded path => [("path", path.display)]
  | configProblem _ => []
  | loggingStarted app version => [("app", app), ("version", version)]
  | configFailed error => [("error", error.message)]
  | configWarning warning => [("warning", warning.message)]
  | processStarting version files policy =>
    [("version", version), ("files", toString files), ("policy", policy.name)]
  | allProcessed files => [("files", toString files)]
  | processAborted failure => [("error", failure.message)]
  | dumpStarting version manifest program outputDir =>
    [("version", version), ("manifest", manifest.display), ("program", String.ofList program),
      ("output_dir", outputDir.display)]
  | dumpAborted failure => [("error", failure.message)]

/-- The events up to a level; none of them if there is no level. -/
def upTo (threshold : Option Level) (events : List Event) : List Event :=
  match threshold with
  | none => []
  | some l => events.filter (·.level.rank ≤ l.rank)

end Event

end StoreLog
