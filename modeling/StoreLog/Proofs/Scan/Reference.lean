-- SUMMARY: A scan as a function of its lines, without a state, and its equivalence to the scan that runs.
import Mathlib.Data.List.Infix
import StoreLog.Proofs.Scan.Lines
import StoreLog.Proofs.Sink
import StoreLog.Scan.Basic

/-!
# What a scan comes to

A scan said by the positions of its lines and without its state: which line is the
marker line, which lines carry payloads, which line is the first that cannot be
accepted. The scan of any source into a sink that takes everything comes to what
this says of the lines of the source.
-/

namespace StoreLog.Scan

/-- A line of a source, or the error that stands in its place. -/
abbrev Line := Except IoError Text

/-! ## The reference -/

def hasMarker (settings : ScanSettings) : Line → Bool
  | .ok s => decide (settings.marker <:+: s)
  | .error _ => false

/-- The first line that contains the marker. -/
def markerLine? (settings : ScanSettings) (lines : List Line) : Option Nat :=
  lines.findIdx? (hasMarker settings)

/-- The payload of line `i`. A payload line comes after the marker line and begins with the
prefix, which is taken off once. -/
def payloadAt? (settings : ScanSettings) (lines : List Line) (i : Nat) : Option Text :=
  match lines[i]? with
  | some (.ok s) =>
    if (markerLine? settings lines).any (· < i) ∧ settings.matchPrefix <+: s then
      some (Text.trim (s.drop settings.matchPrefix.length))
    else none
  | _ => none

def payloads (settings : ScanSettings) (lines : List Line) : List Text :=
  (List.range lines.length).filterMap (payloadAt? settings lines)

/-- Why line `i` cannot be accepted: it cannot be read, or its payload is refused. -/
def faultAt? (settings : ScanSettings) (file : Path) (lines : List Line) (i : Nat) :
    Option ScanError :=
  match lines[i]? with
  | some (.error e) => some (.io file e)
  | _ =>
    match (payloadAt? settings lines i).map Payload.parse with
    | some (.error e) => some (.payload file (i + 1) e)
    | _ => none

/-- The first line that cannot be accepted, and why. -/
def firstFault? (settings : ScanSettings) (file : Path) (lines : List Line) :
    Option (Nat × ScanError) :=
  (List.range lines.length).findSome? fun i => (faultAt? settings file lines i).map (i, ·)

/-- The store paths that a payload names. -/
def storePaths (payload : Text) : List Text :=
  match Payload.parse payload with
  | .ok records => records.map (·.store.path)
  | .error _ => []

local instance trichotomous_text : Std.Trichotomous (α := Text) (· < ·) := inferInstance

/-- What a scan collects from lines that are all accepted. -/
def summary (settings : ScanSettings) (lines : List Line) : ScanSummary where
  linesRead := lines.length
  matchesWritten := (payloads settings lines).length
  markerFound := (markerLine? settings lines).isSome
  storePaths := .ofList ((payloads settings lines).flatMap storePaths)

/-- Payloads as the lines of a file. -/
def payloadBytes (payloads : List Text) : Bytes :=
  payloads.flatMap fun p => Utf8.encode p ++ [lineFeed]

/-- The bytes that a scan writes, and its result. -/
def reference (settings : ScanSettings) (file : Path) (lines : List Line) :
    Bytes × Except ScanError ScanSummary :=
  match firstFault? settings file lines with
  | none => (payloadBytes (payloads settings lines), .ok (summary settings lines))
  | some (n, e) => (payloadBytes (payloads settings (lines.take n)), .error e)

/-! ## Positions -/

variable {settings : ScanSettings} {file : Path}

/-- Which lines come after the marker line does not depend on later lines. -/
theorem markerLine?_append_lt {a b : List Line} {i : Nat} (h : i ≤ a.length) :
    (markerLine? settings (a ++ b)).any (· < i) = (markerLine? settings a).any (· < i) := by
  unfold markerLine?
  rw [List.findIdx?_append]
  cases a.findIdx? (hasMarker settings) with
  | some m => simp
  | none =>
    cases b.findIdx? (hasMarker settings) with
    | none => simp
    | some m => simp; omega

theorem payloadAt?_append {a b : List Line} {i : Nat} (h : i < a.length) :
    payloadAt? settings (a ++ b) i = payloadAt? settings a i := by
  unfold payloadAt?
  rw [List.getElem?_append_left h, markerLine?_append_lt (Nat.le_of_lt h)]

theorem faultAt?_append {a b : List Line} {i : Nat} (h : i < a.length) :
    faultAt? settings file (a ++ b) i = faultAt? settings file a i := by
  unfold faultAt?
  rw [List.getElem?_append_left h, payloadAt?_append h]

theorem payloads_append_singleton (a : List Line) (x : Line) :
    payloads settings (a ++ [x]) =
      payloads settings a ++ (payloadAt? settings (a ++ [x]) a.length).toList := by
  have ha : (List.range a.length).filterMap (payloadAt? settings (a ++ [x])) =
      payloads settings a :=
    List.filterMap_congr fun i hi => payloadAt?_append (List.mem_range.1 hi)
  rw [payloads, List.length_append, List.length_singleton, List.range_succ, List.filterMap_append,
    ha]
  cases h : payloadAt? settings (a ++ [x]) a.length <;> simp [h]

theorem firstFault?_eq_none_iff {lines : List Line} :
    firstFault? settings file lines = none ↔
      ∀ i < lines.length, faultAt? settings file lines i = none := by
  simp [firstFault?, List.findSome?_eq_none_iff]

/-- Lines stay accepted with one more line that is, whatever comes after it. -/
theorem firstFault?_append_singleton {a b : List Line} {x : Line}
    (ha : firstFault? settings file a = none)
    (hx : faultAt? settings file (a ++ x :: b) a.length = none) :
    firstFault? settings file (a ++ [x]) = none := by
  rw [firstFault?_eq_none_iff] at ha ⊢
  intro i hi
  rw [List.append_cons, faultAt?_append (by simp)] at hx
  rw [List.length_append, List.length_singleton] at hi
  rcases Nat.lt_or_eq_of_le (Nat.le_of_lt_succ hi) with hi | rfl
  · rw [faultAt?_append hi]
    exact ha i hi
  · exact hx

theorem firstFault?_eq_some {lines : List Line} {n : Nat} {e : ScanError} (hn : n < lines.length)
    (he : faultAt? settings file lines n = some e)
    (hbefore : ∀ i < n, faultAt? settings file lines i = none) :
    firstFault? settings file lines = some (n, e) := by
  obtain ⟨k, hk⟩ := Nat.exists_eq_add_of_lt hn
  have hnone : (List.range n).findSome? (fun i => (faultAt? settings file lines i).map (i, ·)) =
      none := by
    simpa [List.findSome?_eq_none_iff] using hbefore
  rw [firstFault?, hk, Nat.add_right_comm, List.range_add, List.range_succ, List.append_assoc,
    List.findSome?_append, hnone]
  simp [he]

/-! ## One more line -/

theorem payload?_eq (s : Text) :
    payload? settings s =
      if settings.matchPrefix <+: s then
        some (Text.trim (s.drop settings.matchPrefix.length))
      else none := by
  split
  · next h =>
    obtain ⟨r, rfl⟩ := h
    have hr : settings.matchPrefix.isPrefixOf? (settings.matchPrefix ++ r) = some r := by simp
    simp [payload?, hr]
  · next h =>
    have hr : settings.matchPrefix.isPrefixOf? s = none := by
      rw [Option.eq_none_iff_forall_ne_some]
      intro r hr
      exact h ⟨r, List.isPrefixOf?_eq_some_iff_append_eq.1 hr⟩
    simp [payload?, hr]

/-- The line after accepted ones carries a payload if the marker line is among those. -/
theorem payloadAt?_length (a : List Line) (s : Text) (b : List Line) :
    payloadAt? settings (a ++ .ok s :: b) a.length =
      if (markerLine? settings a).isSome then payload? settings s else none := by
  have hlt : (markerLine? settings a).any (· < a.length) = (markerLine? settings a).isSome := by
    cases h : markerLine? settings a with
    | none => rfl
    | some m => simpa using (List.findIdx?_eq_some_iff_getElem.1 h).1
  simp only [payloadAt?, List.getElem?_append_right (Nat.le_refl _), Nat.sub_self,
    List.getElem?_cons_zero]
  rw [markerLine?_append_lt (Nat.le_refl _), hlt, payload?_eq]
  cases (markerLine? settings a).isSome <;> simp

theorem faultAt?_length_ok (a : List Line) (s : Text) (b : List Line) :
    faultAt? settings file (a ++ .ok s :: b) a.length =
      match (if (markerLine? settings a).isSome then payload? settings s else none).map
        Payload.parse with
      | some (.error e) => some (.payload file (a.length + 1) e)
      | _ => none := by
  simp only [faultAt?, payloadAt?_length, List.getElem?_append_right (Nat.le_refl _), Nat.sub_self,
    List.getElem?_cons_zero]

theorem faultAt?_length_error (a : List Line) (e : IoError) (b : List Line) :
    faultAt? settings file (a ++ .error e :: b) a.length = some (.io file e) := by
  simp [faultAt?]

theorem summary_append_ok (a : List Line) (s : Text) :
    summary settings (a ++ [.ok s]) =
      let new := (if (markerLine? settings a).isSome then payload? settings s else none).toList
      { linesRead := a.length + 1
        matchesWritten := (summary settings a).matchesWritten + new.length
        markerFound := (summary settings a).markerFound || hasMarker settings (.ok s)
        storePaths := (summary settings a).storePaths.insertAll (new.flatMap storePaths) } := by
  have hm : (markerLine? settings (a ++ [.ok s])).isSome =
      ((markerLine? settings a).isSome || hasMarker settings (.ok s)) := by
    cases h : hasMarker settings (.ok s) <;> simp [markerLine?, List.findIdx?_isSome, h]
  simp only [summary, payloads_append_singleton, payloadAt?_length, hm, List.flatMap_append,
    List.length_append, List.length_singleton, SortedSet.ofList, SortedSet.insertAll_append]

/-- What the next line does to a scan that has accepted all lines before it. -/
theorem step_summary (settings : ScanSettings) (file : Path) (done : List Line) (s : Text)
    (rest : List Line) :
    match faultAt? settings file (done ++ .ok s :: rest) done.length with
    | some e =>
      step settings file { summary settings done with linesRead := done.length + 1 } s = .error e
    | none => ∃ acts,
      step settings file { summary settings done with linesRead := done.length + 1 } s =
        .ok (acts, summary settings (done ++ [.ok s])) ∧
      payloadBytes (payloads settings (done ++ [.ok s])) =
        payloadBytes (payloads settings done) ++ Act.output acts := by
  rw [faultAt?_length_ok, summary_append_ok, payloads_append_singleton, payloadAt?_length]
  have hfound : (summary settings done).markerFound = (markerLine? settings done).isSome := rfl
  generalize summary settings done = before at hfound ⊢
  obtain ⟨n, w, found, paths⟩ := before
  obtain rfl : found = (markerLine? settings done).isSome := hfound
  cases (markerLine? settings done).isSome with
  | true =>
    rw [if_pos rfl]
    cases hp : payload? settings s with
    | none => exact ⟨[], by simp [step, hp], by simp⟩
    | some p =>
      cases hr : Payload.parse p with
      | error e => simp [step, hp, hr]
      | ok records =>
        simp only [Option.map_some, hr]
        refine ⟨.note (.phraseMatch file (done.length + 1) records.length p) :: payloadActs p,
          ?_, ?_⟩
        · simp [step, hp, hr, storePaths]
        · simp [payloadBytes, payloadActs, Act.bytes]
  | false =>
    rw [if_neg Bool.false_ne_true]
    by_cases hs : settings.marker <:+: s
    · have hc : Text.contains settings.marker s = true := Text.contains_iff.2 hs
      refine ⟨[.note (.markerFound file (done.length + 1))], ?_, ?_⟩
      · simp [step, hc, hasMarker, hs]
      · simp [Act.bytes]
    · have hc : Text.contains settings.marker s = false :=
        Bool.eq_false_iff.2 (mt Text.contains_iff.1 hs)
      exact ⟨[], by simp [step, hc, hasMarker, hs], by simp⟩

/-- From a summary of accepted lines on, a scan does what the reference says of all lines. -/
theorem course_summary (settings : ScanSettings) (file : Path) (done rest : List Line)
    (h : firstFault? settings file done = none) :
    let c := course settings file (summary settings done) rest
    (payloadBytes (payloads settings done) ++ Act.output c.acts, c.result) =
      reference settings file (done ++ rest) := by
  -- The lines still to come are taken one by one to those that are accepted; the state of
  -- the scan is the summary of these.
  induction rest generalizing done with
  | nil =>
    have hb : Act.output (course settings file (summary settings done) []).acts = [] := by
      cases hm : (summary settings done).markerFound <;> simp [course, hm, Act.bytes]
    simp only [List.append_nil, reference, h, hb]
    rfl
  | cons line rest ih =>
    have hlt : done.length < (done ++ line :: rest).length := by simp
    have hbefore : ∀ i < done.length, faultAt? settings file (done ++ line :: rest) i = none :=
      fun i hi => (faultAt?_append hi).trans (firstFault?_eq_none_iff.1 h i hi)
    cases line with
    | error e =>
      rw [reference, firstFault?_eq_some hlt (faultAt?_length_error done e rest) hbefore]
      simp [course]
    | ok s =>
      have hstep := step_summary settings file done s rest
      cases hf : faultAt? settings file (done ++ .ok s :: rest) done.length with
      | some e =>
        rw [hf] at hstep
        have hread : (summary settings done).linesRead = done.length := rfl
        rw [reference, firstFault?_eq_some hlt hf hbefore]
        simp [course, hread, hstep]
      | none =>
        rw [hf] at hstep
        obtain ⟨acts, hstep, hbytes⟩ := hstep
        have hread : (summary settings done).linesRead = done.length := rfl
        have hdone := firstFault?_append_singleton h hf
        rw [List.append_cons]
        refine Eq.trans ?_ (ih (done ++ [.ok s]) hdone)
        simp only [course, hread, hstep, Course.after, Act.output_append, hbytes,
          List.append_assoc]

theorem reference_eq_ok_iff {lines : List Line} {b : Bytes} {s : ScanSummary} :
    reference settings file lines = (b, .ok s) ↔
      firstFault? settings file lines = none ∧ b = payloadBytes (payloads settings lines) ∧
        s = summary settings lines := by
  unfold reference
  split
  · next h => simp [h, eq_comm]
  · next h => simp [h]

theorem reference_eq_error_iff {lines : List Line} {b : Bytes} {e : ScanError} :
    reference settings file lines = (b, .error e) ↔
      ∃ n, firstFault? settings file lines = some (n, e) ∧
        b = payloadBytes (payloads settings (lines.take n)) := by
  unfold reference
  split
  · next h => simp [h]
  · next n e' h =>
    simp only [h, Prod.mk.injEq, Except.error.injEq, Option.some.injEq]
    constructor
    · rintro ⟨rfl, rfl⟩
      exact ⟨n, ⟨rfl, rfl⟩, rfl⟩
    · rintro ⟨n, ⟨rfl, rfl⟩, rfl⟩
      exact ⟨rfl, rfl⟩

/-- A source that cannot be read to its end has a line that cannot be accepted. -/
theorem fault_eq_none_of_firstFault? {source : Source}
    (h : firstFault? settings file source.lines = none) : source.fault = none := by
  cases hf : source.fault with
  | none => rfl
  | some e =>
    obtain ⟨a, ha⟩ : ∃ a, source.lines = a ++ [.error e] := by
      simp only [Source.lines, hf]
      exact ⟨_, rfl⟩
    rw [ha, firstFault?_eq_none_iff] at h
    have hlt : a.length < (a ++ [(.error e : Line)]).length := by simp
    exact absurd (h a.length hlt) (by simp [faultAt?_length_error])

/-- A scan into a sink that never fails comes to what the reference says. -/
theorem run_of_isReliable (settings : ScanSettings) (file : Path) (source : Source) {sink : Sink}
    (h : sink.IsReliable) :
    (run settings file source sink).sink.written =
        sink.taken ++ (reference settings file source.lines).1 ∧
      (run settings file source sink).result = (reference settings file source.lines).2 := by
  have hc := course_summary settings file [] source.lines rfl
  rw [List.nil_append] at hc
  rw [← hc]
  have hw := Sink.written_close_perform h (course settings file {} source.lines).acts
  obtain ⟨hf, -, -⟩ := Sink.perform_of_isReliable h (course settings file {} source.lines).acts
  refine ⟨hw, ?_⟩
  simp only [run, Course.into, hf]
  rfl

/-- A scan of a content adds to what the sink has taken before what the reference says of
the pieces between the line feeds. -/
theorem run_eq_reference (settings : ScanSettings) (file : Path) (content : Bytes) {sink : Sink}
    (h : sink.IsReliable) :
    let scan := run settings file { content } sink
    let lines := (Source.pieces content).map Source.readPiece
    scan.sink.written = sink.taken ++ (reference settings file lines).1 ∧
      scan.result = (reference settings file lines).2 := by
  intro scan lines
  have hlines : lines = Source.lines { content } := (Source.lines_eq_pieces content).symm
  rw [hlines]
  exact run_of_isReliable settings file { content } h

theorem run_eq_reference_buffered :
    let settings : ScanSettings := ⟨"ready".toList, []⟩
    let sink : Sink := { capacity := 8192 }
    let scan := run settings [] { content := Utf8.encode "ready\n[[]]\r\n[]".toList } sink
    sink.IsReliable ∧ scan.sink.written = Utf8.encode "[[]]\n".toList ∧
      scan.result.toOption.isNone = true := by
  have hr :
      let r := reference ⟨"ready".toList, []⟩ [] <|
        (Source.pieces (Utf8.encode "ready\n[[]]\r\n[]".toList)).map Source.readPiece
      r.1 = Utf8.encode "[[]]\n".toList ∧ r.2.toOption.isNone = true := by
    decide +kernel
  intro settings sink scan
  have hs : sink.IsReliable := ⟨rfl, rfl⟩
  obtain ⟨hwritten, hresult⟩ :=
    run_eq_reference settings [] (Utf8.encode "ready\n[[]]\r\n[]".toList) hs
  exact ⟨hs, hwritten.trans hr.1, hresult ▸ hr.2⟩

end StoreLog.Scan
