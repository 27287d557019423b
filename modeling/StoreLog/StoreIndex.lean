-- SUMMARY: The index of a log: one store path for each line.
import StoreLog.Sink
import StoreLog.Sorted.Set

/-!
# Store indexes

An index lists the store paths of a log in increasing order, one on a line.
-/

namespace StoreLog.StoreIndex

/-- How an index is written. -/
def acts (paths : SortedSet Text) : List Act :=
  paths.toList.flatMap (fun p => [.write (Utf8.encode p), .write [lineFeed]]) ++ [.flush]

/-- Write an index; the result is the number of its paths. -/
def write (paths : SortedSet Text) (sink : Sink) : Sink × Except IoError Nat :=
  let p := sink.perform (acts paths)
  (p.sink.close,
    match p.fault with
    | some e => .error e
    | none => .ok paths.size)

/-- The content of an index file. -/
def render (paths : SortedSet Text) : Bytes :=
  paths.toList.flatMap fun p => Utf8.encode p ++ [lineFeed]

end StoreLog.StoreIndex
