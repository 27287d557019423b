-- SUMMARY: A dump run: reading the manifest, making the output directory, one command for each entry.
import StoreLog.Dump.Runner
import StoreLog.Tree.Directories
import StoreLog.Tree.Files

/-!
# Dump runs

One command for every entry of a manifest, in order. Whatever comes of a command,
the next one is run; only a manifest that cannot be read ends a run early.
-/

namespace StoreLog.Dump

structure Summary where
  /-- The commands that were run. -/
  invoked : Nat := 0
  succeeded : Nat := 0
  /-- The commands that ended in failure or could not be started. -/
  failed : Nat := 0
deriving DecidableEq, Repr

def Summary.add (s : Summary) (o : CommandOutcome) : Summary where
  invoked := s.invoked + 1
  succeeded := if o.isSuccess then s.succeeded + 1 else s.succeeded
  failed := if o.isSuccess then s.failed else s.failed + 1

/-- What is said about the outcome of an entry's command. -/
def outcomeEvent (config : DumpConfig) (e : Manifest.Entry) : CommandOutcome → Event
  | .succeeded => .dumpFinished e.source
  | .exited code => .dumpExited e.source (outputPath config e.source) e.line code
  | .notStarted error => .dumpNotStarted e.source config.program error

/-- What a dump run leaves. -/
structure Outcome (σ : Type) where
  work : Work Failure Summary
  state : σ

variable {σ : Type}

def Outcome.after (events : List Event) (o : Outcome σ) : Outcome σ :=
  { o with work := o.work.after events }

/-- Run the commands of entries; the summary counts the commands before them. -/
def runEntries (run : Runner σ) (config : DumpConfig) (summary : Summary) (t : Tree) (s : σ) :
    List Manifest.Entry → Outcome σ
  | [] =>
    ⟨⟨t, [.dumpsComplete summary.invoked summary.succeeded summary.failed], .ok summary⟩, s⟩
  | e :: es =>
    let turn := run (invocation config e.source) t s
    (runEntries run config (summary.add turn.outcome) turn.tree turn.state es).after
      (.dumping e.source (outputPath config e.source) :: turn.events ++
        [outcomeEvent config e turn.outcome])

/-- Make the output directory if there is anything to put there. A run goes on
without it. -/
def prepare (config : DumpConfig) (entries : List Manifest.Entry) (t : Tree) :
    Tree × List Event :=
  if entries.isEmpty then (t, [])
  else
    let w := t.ensureDir config.outputDir
    match w.result with
    | .ok () => (w.tree, w.events)
    | .error e => (w.tree, w.events ++ [.outputDirMissing config.outputDir e])

/-- Dump every store of a manifest. -/
def run (run : Runner σ) (config : DumpConfig) (manifest : Path) (t : Tree) (s : σ) :
    Outcome σ :=
  match t.readText manifest with
  | .error e => ⟨⟨t, [], .error (.manifest manifest e)⟩, s⟩
  | .ok content =>
    let entries := Manifest.parse content
    let (t, events) := prepare config entries t
    (runEntries run config {} t s entries).after
      (.manifestLoaded manifest entries.length :: events)

end StoreLog.Dump
