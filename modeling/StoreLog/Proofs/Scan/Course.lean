-- SUMMARY: How a scan that has come so far goes on over more lines.
import StoreLog.Proofs.Scan.Reference

/-!
# Courses over more lines

What a course yields: the bytes it writes and its result. The course over lines and
more lines goes on, after the first ones, from their summary; and where it goes on from
a summary, it yields what it yields from the start, with the counts of the earlier lines
added.
-/

namespace StoreLog

/-! ## Later lines -/

/-- An error of a line that comes after `n` others. -/
def ScanError.shift (n : Nat) : ScanError → ScanError
  | .payload file line e => .payload file (n + line) e
  | .io file e => .io file e

attribute [local instance] Scan.trichotomous_text

/-- The summary of lines that come after others, whose summary is `s`. -/
def ScanSummary.after (t s : ScanSummary) : ScanSummary where
  linesRead := s.linesRead + t.linesRead
  matchesWritten := s.matchesWritten + t.matchesWritten
  markerFound := t.markerFound
  storePaths := s.storePaths.insertAll t.storePaths.toList

namespace Scan

/-- The bytes that a scan writes, and its result. -/
abbrev Yield := Bytes × Except ScanError ScanSummary

namespace Yield

/-- What comes of going on after a scan, unless it failed. -/
def andThen (y : Yield) (next : ScanSummary → Yield) : Yield :=
  match y.2 with
  | .error e => (y.1, .error e)
  | .ok s => (y.1 ++ (next s).1, (next s).2)

/-- What a scan yields where it goes on after lines with the summary `s`. -/
def after (y : Yield) (s : ScanSummary) : Yield :=
  (y.1, (y.2.map (·.after s)).mapError (·.shift s.linesRead))

theorem andThen_of_error {y : Yield} {e : ScanError} (h : y.2 = .error e)
    (next : ScanSummary → Yield) : y.andThen next = y := by
  obtain ⟨b, r⟩ := y
  cases h
  rfl

theorem andThen_of_ok {y : Yield} {s : ScanSummary} (h : y.2 = .ok s)
    (next : ScanSummary → Yield) : y.andThen next = (y.1 ++ (next s).1, (next s).2) := by
  obtain ⟨b, r⟩ := y
  cases h
  rfl

theorem andThen_assoc (y : Yield) (next last : ScanSummary → Yield) :
    (y.andThen next).andThen last = y.andThen fun s => (next s).andThen last := by
  obtain ⟨b, r⟩ := y
  cases r with
  | error e => rfl
  | ok s =>
    cases h : (next s).2 with
    | error e => simp [andThen, h]
    | ok t => simp [andThen, h]

theorem after_snd_of_ok {y : Yield} {t : ScanSummary} (h : y.2 = .ok t) (s : ScanSummary) :
    (y.after s).2 = .ok (t.after s) := by
  simp [after, h, Except.map, Except.mapError]

theorem after_snd_of_error {y : Yield} {e : ScanError} (h : y.2 = .error e) (s : ScanSummary) :
    (y.after s).2 = .error (e.shift s.linesRead) := by
  simp [after, h, Except.map, Except.mapError]

end Yield

def Course.yield (c : Course) : Yield :=
  (Act.output c.acts, c.result)

variable {settings : ScanSettings} {file : Path}

/-! ## Line by line -/

theorem yield_course_nil (s : ScanSummary) : (course settings file s []).yield = ([], .ok s) := by
  cases h : s.markerFound <;> simp [Course.yield, course, h, Act.bytes]

theorem yield_course_error (s : ScanSummary) (e : IoError) (lines : List (Except IoError Text)) :
    (course settings file s (.error e :: lines)).yield = ([], .error (.io file e)) := rfl

/-- What one more line yields, as the scan of a single line. -/
def stepYield (settings : ScanSettings) (file : Path) (s : ScanSummary) (line : Text) : Yield :=
  match step settings file { s with linesRead := s.linesRead + 1 } line with
  | .error e => ([], .error e)
  | .ok (acts, s) => (Act.output acts, .ok s)

/-- A line looks for the marker until it is found, and then for a payload. -/
theorem stepYield_eq (s : ScanSummary) (line : Text) :
    stepYield settings file s line =
      if s.markerFound then
        match payload? settings line with
        | none => ([], .ok { s with linesRead := s.linesRead + 1 })
        | some p =>
          match Payload.parse p with
          | .error e => ([], .error (.payload file (s.linesRead + 1) e))
          | .ok records =>
            (Utf8.encode p ++ [lineFeed], .ok
              { linesRead := s.linesRead + 1
                matchesWritten := s.matchesWritten + 1
                markerFound := true
                storePaths := s.storePaths.insertAll (records.map (·.store.path)) })
      else
        ([], .ok
          { s with
            linesRead := s.linesRead + 1
            markerFound := Text.contains settings.marker line }) := by
  obtain ⟨n, k, found, paths⟩ := s
  cases found with
  | true =>
    cases hp : payload? settings line with
    | none => simp [stepYield, step, hp]
    | some p =>
      cases hr : Payload.parse p with
      | error e => simp [stepYield, step, hp, hr]
      | ok records => simp [stepYield, step, hp, hr, payloadActs, Act.bytes]
  | false =>
    cases hm : Text.contains settings.marker line <;> simp [stepYield, step, hm, Act.bytes]

theorem yield_course_ok (s : ScanSummary) (line : Text) (lines : List (Except IoError Text)) :
    (course settings file s (.ok line :: lines)).yield =
      (stepYield settings file s line).andThen fun s => (course settings file s lines).yield := by
  rw [course, stepYield]
  cases step settings file { s with linesRead := s.linesRead + 1 } line with
  | error e => rfl
  | ok p => simp [Course.yield, Course.after, Yield.andThen]

theorem stepYield_marker {m : Text} (hm : settings.marker <:+: m) :
    stepYield settings file {} m = ([], .ok { linesRead := 1, markerFound := true }) := by
  rw [stepYield_eq, Text.contains_iff.2 hm]
  rfl

variable (settings file) in
/-- A course over lines and more lines is one over the more lines that goes on from the
first ones. -/
theorem yield_course_append (s : ScanSummary) (lines more : List (Except IoError Text)) :
    (course settings file s (lines ++ more)).yield =
      (course settings file s lines).yield.andThen
        fun s => (course settings file s more).yield := by
  induction lines generalizing s with
  | nil => simp [yield_course_nil, Yield.andThen]
  | cons line lines ih =>
    cases line with
    | error e => simp [yield_course_error, Yield.andThen]
    | ok line =>
      rw [List.cons_append, yield_course_ok, yield_course_ok, Yield.andThen_assoc]
      congr 1
      funext s
      exact ih s

/-! ## Going on from a summary -/

/-- The paths of later lines join those of the lines before. -/
theorem insertAll_after (s t : SortedSet Text) (paths : List Text) :
    s.insertAll (t.insertAll paths).toList = (s.insertAll t.toList).insertAll paths := by
  apply SortedSet.ext
  intro x
  simp [SortedSet.mem_toList, or_assoc]

theorem stepYield_after (s t : ScanSummary) (line : Text) :
    stepYield settings file (t.after s) line = (stepYield settings file t line).after s := by
  obtain ⟨n, k, found, paths⟩ := t
  rw [stepYield_eq, stepYield_eq]
  cases found with
  | false => rfl
  | true =>
    cases payload? settings line with
    | none => rfl
    | some p =>
      cases hr : Payload.parse p with
      | error e =>
        simp [Yield.after, ScanSummary.after, ScanError.shift, Except.map, Except.mapError, hr,
          Nat.add_assoc]
      | ok records =>
        simp [Yield.after, ScanSummary.after, Except.map, Except.mapError, hr, insertAll_after,
          Nat.add_assoc]

theorem Yield.after_andThen (y : Yield) (s : ScanSummary) {next : ScanSummary → Yield}
    (h : ∀ t, next (t.after s) = (next t).after s) :
    (y.after s).andThen next = (y.andThen next).after s := by
  obtain ⟨b, r⟩ := y
  cases r with
  | error e => rfl
  | ok t =>
    have hr : (Yield.after (b, .ok t) s).2 = .ok (t.after s) := rfl
    rw [Yield.andThen_of_ok hr, h]
    rfl

/-- A course that goes on from the summary of earlier lines yields what it yields without
them, with their counts added. -/
theorem yield_course_after (s t : ScanSummary) (lines : List (Except IoError Text)) :
    (course settings file (t.after s) lines).yield =
      (course settings file t lines).yield.after s := by
  induction lines generalizing t with
  | nil => simp only [yield_course_nil]; rfl
  | cons line lines ih =>
    cases line with
    | error e => rfl
    | ok line =>
      rw [yield_course_ok, yield_course_ok, stepYield_after]
      exact Yield.after_andThen _ s ih

/-- Of the lines before, a scan that goes on keeps only the counts, and whether the marker
is found. -/
theorem yield_course_eq_after (s : ScanSummary) (lines : List (Except IoError Text)) :
    (course settings file s lines).yield =
      (course settings file { markerFound := s.markerFound } lines).yield.after s := by
  have hs : s = ({ markerFound := s.markerFound } : ScanSummary).after s := by
    obtain ⟨n, k, found, paths⟩ := s
    simp [ScanSummary.after]
  conv => lhs; rw [hs]
  exact yield_course_after s _ lines

/-! ## Running a course -/

/-- A course from the start yields what the reference says of its lines. -/
theorem yield_course_eq_reference (lines : List (Except IoError Text)) :
    (course settings file {} lines).yield = reference settings file lines :=
  course_summary settings file [] lines rfl

theorem run_unlimited (settings : ScanSettings) (file : Path) (source : Source) :
    (run settings file source .unlimited).sink.written =
        (course settings file {} source.lines).yield.1 ∧
      (run settings file source .unlimited).result =
        (course settings file {} source.lines).yield.2 := by
  rw [yield_course_eq_reference]
  exact run_of_isReliable settings file source Sink.isReliable_unlimited

end Scan

end StoreLog
