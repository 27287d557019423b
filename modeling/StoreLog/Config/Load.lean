-- SUMMARY: Which configuration file is loaded, and what becomes of one that is missing or broken.
import StoreLog.Config.Location
import StoreLog.Config.Toml
import StoreLog.Tree.Files

/-!
# Loading configurations

A file that the user names has to be there and to be in order. The file at the
usual place may be missing, and is passed over with a warning if it is faulty.
-/

namespace StoreLog.Config

/-- A configuration that is loaded, with what the user is to be warned of. -/
structure Loaded where
  config : Config
  warnings : List ConfigWarning
deriving DecidableEq, Repr

/-- The events on the way to a loaded configuration, or to an error. -/
structure Loading (α : Type) where
  events : List Event
  result : α

def readFile (t : Tree) (p : Path) : Except ConfigError RawConfig :=
  match t.readText p with
  | .error e => .error (.io p e)
  | .ok s => (RawConfig.parse s).mapError (.toml p)

def accept (p : Path) (raw : RawConfig) : Loading Loaded :=
  let (config, warnings) := raw.validate
  ⟨.configLoaded p :: warnings.map .configProblem, ⟨config, warnings⟩⟩

/-- Load a file that has to be there. -/
def loadFile (t : Tree) (p : Path) : Loading (Except ConfigError Loaded) :=
  match readFile t p with
  | .error e => ⟨[], .error e⟩
  | .ok raw => ⟨(accept p raw).events, .ok (accept p raw).result⟩

/-- Load a file that may be missing. -/
def load (t : Tree) (p : Path) : Loading Loaded :=
  match readFile t p with
  | .error (.io _ (.os .notFound)) => ⟨[.configMissing p], ⟨.default, []⟩⟩
  | .error e => ⟨[.configProblem (.file e)], ⟨.default, [.file e]⟩⟩
  | .ok raw => accept p raw

/-- Load what a command is to use: the file that is named, or else the user's. -/
def loadFor (t : Tree) (dirs : Option UserDirs) (named : Option Path) :
    Loading (Except ConfigError Loaded) :=
  match named with
  | some p => loadFile t p
  | none =>
    let l := load t (PlatformPaths.resolve dirs).configFile
    ⟨PlatformPaths.resolved dirs :: l.events, .ok l.result⟩

end StoreLog.Config
