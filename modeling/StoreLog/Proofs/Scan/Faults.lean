-- SUMMARY: Scans whose source or sink fails, cut by cut.
import StoreLog.Proofs.Scan.Course
import StoreLog.Proofs.Scan.WholeLines

/-!
# Scans with failing readers and writers

A writer that takes only so many bytes has the first bytes of what a scan writes, and the
scan fails with the writer's fault if there are more, whatever it would have come to. A
reader that fails ends a scan after the whole lines that it has delivered.
-/

namespace StoreLog.Scan

variable {settings : ScanSettings} {file : Path}

/-! ## Failing writers -/

theorem flush_not_mem_of_step {s t : ScanSummary} {line : Text} {acts : List Act}
    (h : step settings file s line = .ok (acts, t)) : .flush ∉ acts := by
  unfold step at h
  split at h
  · split at h
    · cases h
      exact List.not_mem_nil
    · split at h
      · cases h
      · cases h
        simp [payloadActs]
  · split at h
    · cases h
      simp
    · cases h
      exact List.not_mem_nil

/-- How a course ends: with a flush, if all lines are accepted. -/
def closing (settings : ScanSettings) (file : Path) : Except ScanError ScanSummary → List Act
  | .error _ => []
  | .ok s => .flush :: if s.markerFound then [] else [.note (.markerMissing file settings.marker)]

/-- A course flushes once at most, after all that it writes. -/
theorem exists_acts_closing (s : ScanSummary) (lines : List (Except IoError Text)) :
    ∃ acts, .flush ∉ acts ∧ (course settings file s lines).acts =
      acts ++ closing settings file (course settings file s lines).result := by
  induction lines generalizing s with
  | nil => exact ⟨[], List.not_mem_nil, rfl⟩
  | cons line lines ih =>
    cases line with
    | error e => exact ⟨[], List.not_mem_nil, rfl⟩
    | ok line =>
      rw [course]
      split
      · exact ⟨[], List.not_mem_nil, rfl⟩
      · next acts t hstep =>
        obtain ⟨more, hmore, hacts⟩ := ih t
        refine ⟨acts ++ more, ?_, ?_⟩
        · rw [List.mem_append, not_or]
          exact ⟨flush_not_mem_of_step hstep, hmore⟩
        · simp only [Course.after, hacts, List.append_assoc]

theorem output_closing (r : Except ScanError ScanSummary) :
    Act.output (closing settings file r) = [] := by
  cases r with
  | error e => rfl
  | ok s => cases h : s.markerFound <;> simp [closing, h, Act.bytes]

variable (settings file) in
/-- After its flush, a course has nothing but a note. -/
theorem exists_closing_ok (s : ScanSummary) :
    ∃ events : List Event, closing settings file (.ok s) = .flush :: events.map .note := by
  cases h : s.markerFound with
  | true => exact ⟨[], by simp [closing, h]⟩
  | false => exact ⟨[.markerMissing file settings.marker], by simp [closing, h]⟩

variable (settings file) in
/-- The acts of a course end with a flush only if all its lines are accepted, but without a buffer
their bytes arrive in any case. -/
theorem perform_of_isLimited {sink : Sink} {n : Nat} (h : sink.IsLimited n) (s : ScanSummary)
    (lines : List (Except IoError Text)) :
    let c := course settings file s lines
    let p := sink.perform c.acts
    p.sink.close.written = (sink.written ++ c.yield.1).take (sink.written.length + n) ∧
      p.fault = if (sink.written ++ c.yield.1).length ≤ sink.written.length + n
        then c.result.toOption.bind fun _ => sink.flushFault else some sink.fault := by
  intro c p
  obtain ⟨acts, hflush, hacts⟩ :
      ∃ acts, .flush ∉ acts ∧ c.acts = acts ++ closing settings file c.result :=
    exists_acts_closing s lines
  have hy : c.yield.1 = Act.output acts := by
    simp only [Course.yield, hacts, Act.output_append, output_closing, List.append_nil]
  have hp : p = sink.perform (acts ++ closing settings file c.result) := congrArg _ hacts
  rw [hp, hy]
  cases c.result with
  | error e =>
    rw [closing, List.append_nil]
    exact Sink.perform_of_unbuffered h.hasTaken h.capacity hflush
  | ok t =>
    obtain ⟨events, hevents⟩ := exists_closing_ok settings file t
    rw [hevents]
    exact Sink.perform_append_flush h.hasTaken hflush events

/-- A course that is followed into a sink that takes so many bytes. -/
theorem into_of_isLimited {sink : Sink} {n : Nat} (h : sink.IsLimited n) (s : ScanSummary)
    (lines : List (Except IoError Text)) :
    let c := course settings file s lines
    let y := c.yield
    (c.into file sink).sink.written = sink.written ++ y.1.take n ∧
      (c.into file sink).result =
        if n < y.1.length then .error (.io file sink.fault)
        else match y.2, sink.flushFault with
          | .ok _, some e => .error (.io file e)
          | result, _ => result := by
  intro c y
  obtain ⟨hwritten, hfault⟩ := perform_of_isLimited settings file h s lines
  refine ⟨hwritten.trans (List.take_length_add_append n), ?_⟩
  have hresult : y.2 = c.result := rfl
  have hbytes : (course settings file s lines).yield.1 = y.1 := rfl
  simp only [Course.into]
  rw [hfault, hresult, hbytes, List.length_append]
  by_cases hmore : n < y.1.length
  · rw [if_pos hmore, if_neg (by omega)]
  · rw [if_neg hmore, if_pos (by omega)]
    cases c.result with
    | error e => rfl
    | ok t => cases sink.flushFault <;> rfl

/-! ## Failing readers -/

/-- A course over lines and a failure yields what the lines do, and fails if they do not. -/
theorem yield_course_append_error (s : ScanSummary) (lines : List (Except IoError Text))
    (e : IoError) :
    (course settings file s (lines ++ [.error e])).yield =
      ((course settings file s lines).yield.1,
        match (course settings file s lines).yield.2 with
        | .error e' => .error e'
        | .ok _ => .error (.io file e)) := by
  rw [yield_course_append]
  cases h : (course settings file s lines).yield.2 with
  | error e' =>
    rw [Yield.andThen_of_error h]
    exact Prod.ext rfl h
  | ok t =>
    rw [Yield.andThen_of_ok h, yield_course_error, List.append_nil]

/-- Faults cut a scan off. A writer that takes `n` bytes has the first `n` of those that are
written without it; if there are more, the scan fails with the writer's fault and else comes to
the same, except that a fault of the flush fails a scan that succeeds. A reader that fails
after `r` bytes leaves the scan of the whole lines within these bytes, and fails it if they
do not. -/
theorem run_of_faults (settings : ScanSettings) (file : Path) :
    (∀ (source : Source) (n : Nat) (fault : IoError) (flushFault : Option IoError),
      let free := run settings file source .unlimited
      let scan := run settings file source { room := some n, fault, flushFault }
      scan.sink.written = free.sink.written.take n ∧
        scan.result =
          if n < free.sink.written.length then .error (.io file fault)
          else match free.result, flushFault with
            | .ok _, some e => .error (.io file e)
            | result, _ => result) ∧
    ∀ (content : Bytes) (r : Nat) (fault : IoError),
      let whole := Source.wholeLines (content.take r)
      let free := run settings file { content := whole } .unlimited
      let scan := run settings file { content := content.take r, fault := some fault } .unlimited
      Source.IsLongestWhole content r whole ∧
        scan.sink.written = free.sink.written ∧
        scan.result =
          match free.result with
          | .error e => .error e
          | .ok _ => .error (.io file fault) := by
  constructor
  · intro source n fault flushFault free scan
    have hlimited : ({ room := some n, fault, flushFault } : Sink).IsLimited n := ⟨rfl, rfl, rfl⟩
    obtain ⟨hwritten, hresult⟩ := run_unlimited settings file source
    rw [hwritten, hresult]
    exact into_of_isLimited hlimited {} source.lines
  · intro content r fault whole free scan
    obtain ⟨hwritten, hresult⟩ := run_unlimited settings file { content := whole }
    obtain ⟨hwritten', hresult'⟩ :=
      run_unlimited settings file { content := content.take r, fault := some fault }
    rw [Source.lines_of_fault, yield_course_append_error] at hwritten' hresult'
    refine ⟨Source.isLongestWhole_take content r, ?_, ?_⟩
    · rw [hwritten', hwritten]
    · rw [hresult', hresult]

end StoreLog.Scan
