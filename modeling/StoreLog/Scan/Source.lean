-- SUMMARY: Sources of bytes, and the lines that are read from them.
import StoreLog.Event

/-!
# Sources

What a scan reads: bytes, and the error that follows them if reading does not
come to a regular end. A source is read line by line. A line ends with a line
feed, before which one carriage return is dropped; the last line may lack it, and
is then taken as it is, but only if reading ends without an error.
-/

namespace StoreLog

structure Source where
  content : Bytes
  fault : Option IoError := none
deriving DecidableEq, Repr

namespace Source

/-- Cut after every line feed. -/
def chunks : Bytes → List Bytes
  | [] => []
  | b :: s =>
    if b = lineFeed then [b] :: chunks s
    else
      match chunks s with
      | [] => [[b]]
      | c :: cs => (b :: c) :: cs

def isComplete (chunk : Bytes) : Bool :=
  chunk.getLast? == some lineFeed

/-- Drop the line feed at the end, and the carriage return before it. -/
def dropEnding (s : Text) : Text :=
  match ['\n'].isSuffixOf? s with
  | none => s
  | some t => (['\r'].isSuffixOf? t).getD t

/-- The line of a chunk. -/
def line (chunk : Bytes) : Except IoError Text :=
  match Utf8.decode chunk with
  | none => .error .notUtf8
  | some s => .ok (dropEnding s)

/-- The lines in order. An error stands where reading would stop. -/
def lines (s : Source) : List (Except IoError Text) :=
  match s.fault with
  | none => (chunks s.content).map line
  | some e => ((chunks s.content).filter isComplete).map line ++ [.error e]

/-- The lines up to the first error, which is the result if there is one. -/
def readLines (s : Source) : Except IoError (List Text) :=
  s.lines.mapM id

end Source

end StoreLog
