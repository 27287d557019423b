-- SUMMARY: One log processed into its two outputs, and several logs under a failure policy.
import StoreLog.Outputs
import StoreLog.Scan.Basic
import StoreLog.StoreIndex
import StoreLog.Tree.Files
import StoreLog.Tree.Work

/-!
# Processing logs

A log is scanned into its payload file; the index is written from what a
successful scan collects. Of several logs, each is processed on the tree that the
one before it has left.
-/

namespace StoreLog.Log

/-! ## One log -/

/-- Scan an open log into its payload file. The log is read as it is after the
payload file has been created. -/
def writePayloads (settings : ScanSettings) (log ljson : Path) (source : Loc) (t : Tree) :
    Work Failure ScanSummary :=
  match t.create ljson with
  | .error e => ⟨t, [], .error (.output ljson e)⟩
  | .ok (t, l) =>
    let scan := Scan.run settings log (t.sourceAt source) (t.sinkAt l)
    ⟨t.commit l scan.sink, scan.events, scan.result.mapError .scan⟩

def writeIndex (idx : Path) (paths : SortedSet Text) (t : Tree) : Work Failure Nat :=
  match t.create idx with
  | .error e => ⟨t, [], .error (.output idx e)⟩
  | .ok (t, l) =>
    let (sink, count) := StoreIndex.write paths (t.sinkAt l)
    ⟨t.commit l sink, [], count.mapError (.output idx)⟩

def processed (log : Path) (outputs : Outputs) (s : ScanSummary) : Event :=
  .logProcessed log s.linesRead s.matchesWritten s.storePaths.size outputs.ljson outputs.idx

def process (settings : ScanSettings) (t : Tree) (log : Path) : Work Failure ScanSummary :=
  let outputs := Outputs.ofLog log
  match t.openRead log with
  | .error e => ⟨t, [], .error (.io log "open log" e)⟩
  | .ok source =>
    (writePayloads settings log outputs.ljson source t).andThen fun t summary =>
      (writeIndex outputs.idx summary.storePaths t).andThen fun t _ =>
        ⟨t, [processed log outputs summary], .ok summary⟩

/-! ## Several logs -/

/-- What came of every log. -/
structure Report where
  processed : List (Path × ScanSummary) := []
  failed : List (Path × Failure) := []

namespace Report

def hasFailures (r : Report) : Bool :=
  !r.failed.isEmpty

def addProcessed (log : Path) (s : ScanSummary) (r : Report) : Report :=
  { r with processed := (log, s) :: r.processed }

def addFailed (log : Path) (e : Failure) (r : Report) : Report :=
  { r with failed := (log, e) :: r.failed }

end Report

/-- Process logs in order. The first failure ends the work under `failFast`; under
`keepGoing` it goes into the report. -/
def processAll (settings : ScanSettings) (policy : FailurePolicy) (t : Tree) :
    List Path → Work Failure Report
  | [] => ⟨t, [], .ok {}⟩
  | log :: logs =>
    let w := process settings t log
    match w.result, policy with
    | .ok summary, _ =>
      ((processAll settings policy w.tree logs).map (·.addProcessed log summary)).after w.events
    | .error e, .failFast => ⟨w.tree, w.events, .error e⟩
    | .error e, .keepGoing =>
      ((processAll settings policy w.tree logs).map (·.addFailed log e)).after
        (w.events ++ [.logFailed log e])

end StoreLog.Log
