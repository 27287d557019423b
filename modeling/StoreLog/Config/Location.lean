-- SUMMARY: Where the configuration of a user lies, and what is said about that.
import StoreLog.Event

/-!
# Where the configuration lies

The configuration file of a user who names none: in the directory of this program, under
the directory that the environment gives for configurations, or under the one in the home
directory if it gives none that is absolute. Where the system knows no directories of the
user, it lies in the work directory.
-/

namespace StoreLog

/-- What the environment says about the user's directories. -/
structure UserDirs where
  home : Path
  configHome : Option Path := none
deriving DecidableEq, Repr

namespace UserDirs

def configBase (u : UserDirs) : Path :=
  match u.configHome.filter Path.isAbsolute with
  | some dir => dir
  | none => u.home.join (Path.ofText ".config".toList)

def configDir (u : UserDirs) : Path :=
  u.configBase.join (Path.ofText "gridstore-tools".toList)

end UserDirs

structure PlatformPaths where
  configDir : Path
deriving DecidableEq, Repr

namespace PlatformPaths

/-- The paths for the directories of a user, if the system knows any. -/
def resolve : Option UserDirs → PlatformPaths
  | some dirs => ⟨dirs.configDir⟩
  | none => ⟨Path.ofText ".".toList⟩

/-- What is said when the paths are resolved. -/
def resolved : Option UserDirs → Event
  | some dirs => .pathsResolved dirs.configDir
  | none => .pathsUnknown

def configFile (p : PlatformPaths) : Path :=
  p.configDir.join (Path.ofText "config.toml".toList)

end PlatformPaths

end StoreLog
