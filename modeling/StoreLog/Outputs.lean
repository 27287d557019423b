-- SUMMARY: The paths of the two outputs of a log.
import StoreLog.Path

/-!
# Output files

The two files that are written next to a log.
-/

namespace StoreLog

structure Outputs where
  /-- The payloads, one on a line. -/
  ljson : Path
  /-- The store paths. -/
  idx : Path
deriving DecidableEq, Repr

namespace Outputs

def logExtension : Bytes := Path.ofText ['l', 'o', 'g']

def ljsonEnding : Bytes := Path.ofText ['.', 'l', 'j', 's', 'o', 'n']

def idxEnding : Bytes := Path.ofText ['.', 'i', 'd', 'x']

/-- The path of a log without its extension; a log with another extension or none
keeps its full name. -/
def stem (log : Path) : Path :=
  if log.extension? = some logExtension then log.dropExtension else log

def ofLog (log : Path) : Outputs where
  ljson := stem log ++ ljsonEnding
  idx := stem log ++ idxEnding

end Outputs

end StoreLog
