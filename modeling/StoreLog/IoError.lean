-- SUMMARY: Why an operation on files or processes failed.
import StoreLog.OsError

/-!
# Input and output errors

Why an operation on files or processes failed.
-/

namespace StoreLog

inductive IoError
  | os (error : OsError)
  /-- A file that is read as text is not UTF-8. -/
  | notUtf8
  /-- A path has a byte that no file name may have. -/
  | nulInPath
  /-- A command has such a byte in its name or in an argument. -/
  | nulInCommand
  /-- A reader, a writer or a starter of commands reports this text. -/
  | reported (text : String)
deriving DecidableEq, Repr

def IoError.message : IoError → String
  | .os e => s!"{e.description} (os error {e.code})"
  | .notUtf8 => "stream did not contain valid UTF-8"
  | .nulInPath => "file name contained an unexpected NUL byte"
  | .nulInCommand => "nul byte found in provided data"
  | .reported text => text

end StoreLog
