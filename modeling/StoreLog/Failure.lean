-- SUMMARY: Failures of scans, runs and configurations, with their messages and causes.
import StoreLog.IoError
import StoreLog.Path
import StoreLog.Payload

/-!
# Failures

Why an operation of the library failed, by the part of the work that did. Every
failure has a message and a chain of causes: the messages of the error below it,
of the error below that one, and so on.
-/

namespace StoreLog

/-! ## Logs -/

/-- Why a scan ended early. -/
inductive ScanError
  | payload (file : Path) (line : Nat) (error : PayloadError)
  | io (file : Path) (error : IoError)
deriving DecidableEq, Repr

namespace PayloadError

def message : PayloadError → String
  | .invalidJson e => s!"payload is not valid JSON: {e.message}"
  | .unexpectedShape reason => reason
  | .invalidRecord m => s!"malformed phrase-match record: {m.message}"

def causes : PayloadError → List String
  | .invalidJson e => [e.message]
  | .unexpectedShape _ => []
  | .invalidRecord m => [m.message]

end PayloadError

namespace ScanError

/-- The line that a scan stopped at, where the error is one of a line. -/
def line? : ScanError → Option Nat
  | .payload _ line _ => some line
  | .io _ _ => none

def message : ScanError → String
  | .payload file line e => s!"'{file.display}' line {line}: {e.message}"
  | .io file e => s!"'{file.display}': I/O error: {e.message}"

def causes : ScanError → List String
  | .payload _ _ e => e.causes
  | .io _ e => [e.message]

end ScanError

/-! ## Configuration -/

/-- Why a text is not accepted as a configuration. -/
inductive TomlError
  | notToml
  | mismatch (error : Mismatch)
deriving DecidableEq, Repr

def TomlError.message : TomlError → String
  | .notToml => "<toml syntax error>"
  | .mismatch m => m.message

inductive ConfigError
  | toml (path : Path) (error : TomlError)
  | outOfRange (field value expected : String)
  | io (path : Path) (error : IoError)
deriving DecidableEq, Repr

namespace ConfigError

def message : ConfigError → String
  | .toml path e => s!"Config parse error '{path.display}': {e.message}"
  | .outOfRange field value expected =>
    s!"Config '{field}' = '{value}' is out of range. Expected: {expected}"
  | .io path e => s!"Config I/O error '{path.display}': {e.message}"

def causes : ConfigError → List String
  | .toml _ e => [e.message]
  | .outOfRange .. => []
  | .io _ e => [e.message]

/-- The message with no more about a TOML text than that it is at fault. -/
def headline : ConfigError → String
  | .toml path _ => s!"Config parse error '{path.display}': TOML parse error"
  | e => e.message

end ConfigError

/-- What the user is told about a configuration that is used all the same. -/
inductive ConfigWarning
  /-- One value is replaced by its default. -/
  | value (error : ConfigError)
  /-- The whole file is replaced by the defaults. -/
  | file (error : ConfigError)
deriving DecidableEq, Repr

def ConfigWarning.message : ConfigWarning → String
  | .value e => s!"{e.message}. Using default."
  | .file e => s!"{e.message}. Using defaults."

/-! ## All failures -/

inductive Failure
  /-- The manifest could not be read. -/
  | manifest (path : Path) (error : IoError)
  | scan (error : ScanError)
  /-- An output file could not be created or written. -/
  | output (path : Path) (error : IoError)
  | config (error : ConfigError)
  | io (path : Path) (operation : String) (error : IoError)
deriving DecidableEq, Repr

namespace Failure

/-- What the part of the work that failed says by itself. -/
def detail : Failure → String
  | .manifest path e => s!"Cannot read manifest '{path.display}': {e.message}"
  | .scan e => e.message
  | .output path e => s!"Cannot write '{path.display}': {e.message}"
  | .config e => e.message
  | .io path operation e => s!"I/O error during {operation} on '{path.display}': {e.message}"

def message (f : Failure) : String :=
  match f with
  | .manifest .. => s!"Manifest error: {f.detail}"
  | .scan _ => s!"Parse error: {f.detail}"
  | .output .. => s!"Export error: {f.detail}"
  | .config _ => s!"Configuration error: {f.detail}"
  | .io .. => f.detail

/-- The messages of the errors below this one. -/
def causes (f : Failure) : List String :=
  match f with
  | .manifest _ e => [f.detail, e.message]
  | .scan e => f.detail :: e.causes
  | .output _ e => [f.detail, e.message]
  | .config e => f.detail :: e.causes
  | .io _ _ e => [e.message]

def line? : Failure → Option Nat
  | .scan e => e.line?
  | _ => none

end Failure

end StoreLog
