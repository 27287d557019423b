-- SUMMARY: The scan of a log: its settings, its states, its result and its events.
import StoreLog.Scan.Source
import StoreLog.Sink
import StoreLog.Sorted.Set

/-!
# Scanning a log

A log begins with the startup output of a server, which ends with the first line
that contains the marker. After it, a line with the match prefix carries a
payload, and other lines are noise. A scan collects the store paths that the
payloads name and writes every payload, trimmed, as one line.

`course` says what a scan does when every write succeeds; a scan into a sink
follows the course as far as the sink allows.
-/

namespace StoreLog

structure ScanSettings where
  /-- A line that contains this ends the startup section. -/
  marker : Text
  /-- What a payload line begins with. -/
  matchPrefix : Text
deriving DecidableEq, Repr

def ScanSettings.default : ScanSettings where
  marker := "dev server ready".toList
  matchPrefix := "PHRASEMATCH ".toList

instance : Inhabited ScanSettings := ⟨.default⟩

structure ScanSummary where
  linesRead : Nat := 0
  matchesWritten : Nat := 0
  markerFound : Bool := false
  storePaths : SortedSet Text := ∅

namespace Scan

/-- What a scan does, in order, and what it comes to. -/
structure Course where
  acts : List Act
  result : Except ScanError ScanSummary

def Course.after (acts : List Act) (c : Course) : Course :=
  ⟨acts ++ c.acts, c.result⟩

/-- A payload is written as one line. -/
def payloadActs (payload : Text) : List Act :=
  [.write (Utf8.encode payload), .write [lineFeed]]

/-- The payload of a line, if the line has the prefix. -/
def payload? (settings : ScanSettings) (line : Text) : Option Text :=
  (settings.matchPrefix.isPrefixOf? line).map Text.trim

/-- What one more line does; the summary counts the line already. -/
def step (settings : ScanSettings) (file : Path) (summary : ScanSummary) (line : Text) :
    Except ScanError (List Act × ScanSummary) :=
  if summary.markerFound then
    match payload? settings line with
    | none => .ok ([], summary)
    | some payload =>
      match Payload.parse payload with
      | .error e => .error (.payload file summary.linesRead e)
      | .ok records =>
        .ok (.note (.phraseMatch file summary.linesRead records.length payload)
            :: payloadActs payload,
          { summary with
            matchesWritten := summary.matchesWritten + 1
            storePaths := summary.storePaths.insertAll (records.map (·.store.path)) })
  else if Text.contains settings.marker line then
    .ok ([.note (.markerFound file summary.linesRead)], { summary with markerFound := true })
  else .ok ([], summary)

/-- The course of a scan from a summary of the lines before on. -/
def course (settings : ScanSettings) (file : Path) (summary : ScanSummary) :
    List (Except IoError Text) → Course
  | [] =>
    ⟨.flush :: (if summary.markerFound then [] else [.note (.markerMissing file settings.marker)]),
      .ok summary⟩
  | .error e :: _ => ⟨[], .error (.io file e)⟩
  | .ok line :: lines =>
    match step settings file { summary with linesRead := summary.linesRead + 1 } line with
    | .error e => ⟨[], .error e⟩
    | .ok (acts, summary) => (course settings file summary lines).after acts

/-- A scan's sink, events and result. -/
structure Outcome where
  sink : Sink
  events : List Event
  result : Except ScanError ScanSummary

/-- Follow a course into a sink. -/
def Course.into (c : Course) (file : Path) (sink : Sink) : Outcome :=
  let p := sink.perform c.acts
  ⟨p.sink.close, p.events,
    match p.fault with
    | some e => .error (.io file e)
    | none => c.result⟩

/-- Scan a source; `file` names it in errors and events. -/
def run (settings : ScanSettings) (file : Path) (source : Source) (sink : Sink) : Outcome :=
  (course settings file {} source.lines).into file sink

end Scan

end StoreLog
