-- SUMMARY: What becomes of a scan when its log grows.
import StoreLog.Proofs.Scan.Course
import StoreLog.Proofs.Scan.WholeLines
import StoreLog.Proofs.StoreIndex

/-!
# Logs that grow

The scan of a log of whole lines with more bytes after it, from the scan of the log and a
scan of the rest. A log that fails hides what follows it. After a log without the marker
the rest is scanned as a log of its own; after one with the marker it is scanned as if a
marker line stood before it. Its lines are counted on from those of the log.
-/

namespace StoreLog

theorem ScanError.shift_shift (e : ScanError) (m n : Nat) :
    (e.shift m).shift n = e.shift (n + m) := by
  cases e with
  | payload file line e => simp [shift, Nat.add_assoc]
  | io file e => rfl

namespace Scan

variable {settings : ScanSettings} {file : Path}

/-- A log that is accepted has a summary that counts its lines. -/
theorem linesRead_of_yield {lines : List (Except IoError Text)} {s : ScanSummary}
    (h : (course settings file {} lines).yield.2 = .ok s) : s.linesRead = lines.length := by
  have hr : reference settings file lines = ((reference settings file lines).1, .ok s) := by
    rw [yield_course_eq_reference] at h
    exact Prod.ext rfl h
  obtain ⟨-, -, rfl⟩ := reference_eq_ok_iff.1 hr
  rfl

theorem linesRead_ne_zero {lines : List (Except IoError Text)} {s : ScanSummary}
    (h : (course settings file {} lines).yield.2 = .ok s) (hs : s.markerFound = true) :
    s.linesRead ≠ 0 := by
  intro hzero
  rw [linesRead_of_yield h, List.length_eq_zero_iff] at hzero
  subst hzero
  rw [yield_course_nil] at h
  cases h
  cases hs

/-- A log without the marker has no payloads. -/
theorem payloads_of_markerLine?_eq_none {lines : List Line}
    (h : markerLine? settings lines = none) : payloads settings lines = [] := by
  rw [payloads, List.filterMap_eq_nil_iff]
  intro i _
  unfold payloadAt?
  rw [h]
  split
  · exact if_neg (by simp)
  · rfl

/-- A log that is accepted without the marker comes to nothing but the count of its lines. -/
theorem yield_of_not_found {lines : List (Except IoError Text)} {s : ScanSummary}
    (h : (course settings file {} lines).yield.2 = .ok s) (hs : s.markerFound = false) :
    (course settings file {} lines).yield.1 = [] ∧ s = { linesRead := lines.length } := by
  rw [yield_course_eq_reference] at h ⊢
  have hr : reference settings file lines = ((reference settings file lines).1, .ok s) :=
    Prod.ext rfl h
  obtain ⟨-, hbytes, rfl⟩ := reference_eq_ok_iff.1 hr
  have hfound : (markerLine? settings lines).isSome = false := hs
  have hmarker : markerLine? settings lines = none := by simpa using hfound
  have hnone : payloads settings lines = [] := payloads_of_markerLine?_eq_none hmarker
  refine ⟨?_, ?_⟩
  · rw [hbytes, hnone]
    rfl
  · simp only [summary, hnone, hfound]
    rfl

/-- After a marker line, a scan goes on with the marker found. -/
theorem yield_course_marker {m : Text} (hm : settings.marker <:+: m)
    (lines : List (Except IoError Text)) :
    (course settings file {} (.ok m :: lines)).yield =
      (course settings file { markerFound := true } lines).yield.after
        { linesRead := 1, markerFound := true } := by
  rw [yield_course_ok, stepYield_marker hm]
  exact yield_course_eq_after _ lines

/-- The scan of a log of whole lines and of more bytes after it. If the log fails, the more
bytes change nothing. If it has no marker, they are scanned by themselves, and their lines
counted on. If it has, they are scanned after any marker line, and what they come to is added
to what the log came to. -/
theorem run_append (settings : ScanSettings) (file : Path) {log : Bytes} (h : Source.IsWhole log)
    (more : Bytes) :
    let scan (content : Bytes) := run settings file { content } .unlimited
    let n := log.count lineFeed
    match (scan log).result with
    | .error e =>
      (scan (log ++ more)).sink.written = (scan log).sink.written ∧
        (scan (log ++ more)).result = .error e
    | .ok s =>
      if s.markerFound then
        ∀ m : Text, settings.marker <:+: m → '\n' ∉ m → m.getLast? ≠ some '\r' →
          let rest := scan (Utf8.encode m ++ lineFeed :: more)
          (scan (log ++ more)).sink.written = (scan log).sink.written ++ rest.sink.written ∧
            match rest.result with
            | .error e => ∃ k, k + 1 = n ∧ (scan (log ++ more)).result = .error (e.shift k)
            | .ok t => ∃ u, (scan (log ++ more)).result = .ok u ∧
              u.linesRead + 1 = s.linesRead + t.linesRead ∧
              u.matchesWritten = s.matchesWritten + t.matchesWritten ∧
              u.markerFound = t.markerFound ∧
              ∀ p, p ∈ u.storePaths ↔ p ∈ s.storePaths ∨ p ∈ t.storePaths
      else
        (scan (log ++ more)).sink.written = (scan more).sink.written ∧
          (scan (log ++ more)).result =
            match (scan more).result with
            | .error e => .error (e.shift n)
            | .ok t => .ok { t with linesRead := n + t.linesRead } := by
  intro scan n
  have hscan (content : Bytes) := run_unlimited settings file { content }
  have hlength : (Source.lines { content := log }).length = n := Source.length_lines h
  have happend := yield_course_append settings file {} (Source.lines { content := log })
    (Source.lines { content := more })
  rw [← Source.lines_append h] at happend
  simp only [scan, (hscan _).1, (hscan _).2]
  split
  · next e he =>
    rw [Yield.andThen_of_error he] at happend
    rw [happend]
    exact ⟨rfl, he⟩
  · next s hs =>
    rw [Yield.andThen_of_ok hs, yield_course_eq_after s] at happend
    have hread : s.linesRead = n := (linesRead_of_yield hs).trans hlength
    split
    · next hfound =>
      intro m hm hfeed hreturn
      rw [hfound] at happend
      rw [happend, Source.lines_encode_append hfeed hreturn, yield_course_marker hm]
      refine ⟨rfl, ?_⟩
      -- Both scans are the one that begins with the marker found, moved to later lines.
      generalize (course settings file { markerFound := true }
        (Source.lines { content := more })).yield = y
      cases hy : y.2 with
      | error e =>
        rw [Yield.after_snd_of_error hy, Yield.after_snd_of_error hy]
        obtain ⟨k, hk⟩ := Nat.exists_eq_succ_of_ne_zero (linesRead_ne_zero hs hfound)
        refine ⟨k, hk.symm.trans hread, ?_⟩
        rw [ScanError.shift_shift, hk]
        rfl
      | ok t =>
        rw [Yield.after_snd_of_ok hy, Yield.after_snd_of_ok hy]
        refine ⟨t.after s, rfl, ?_, ?_, rfl, ?_⟩
        · simp only [ScanSummary.after]
          omega
        · simp only [ScanSummary.after]
          omega
        · intro p
          simp [ScanSummary.after, SortedSet.mem_toList]
    · next hfound =>
      rw [Bool.not_eq_true] at hfound
      obtain ⟨hnil, hcount⟩ := yield_of_not_found hs hfound
      rw [hfound, hnil, List.nil_append] at happend
      rw [happend]
      refine ⟨rfl, ?_⟩
      cases hy : (course settings file {} (Source.lines { content := more })).yield.2 with
      | error e => rw [Yield.after_snd_of_error hy, hread]
      | ok t =>
        have hpaths : (∅ : SortedSet Text).insertAll t.storePaths.toList = t.storePaths := by
          apply SortedSet.ext
          simp [SortedSet.mem_toList]
        rw [Yield.after_snd_of_ok hy, hcount, hlength]
        simp only [ScanSummary.after, hpaths, Nat.zero_add]

/-- A log with one payload grows by one that is accepted and one that is refused. -/
theorem run_append_refused :
    let settings : ScanSettings := ⟨"ready".toList, []⟩
    let log := Utf8.encode "ready\n[[]]\n".toList
    let more := Utf8.encode "[[ ]]\r\n[]".toList
    Source.IsWhole log ∧
      (run settings [] { content := log ++ more } .unlimited).sink.written =
        Utf8.encode "[[]]\n[[ ]]\n".toList ∧
      (run settings [] { content := log ++ more } .unlimited).result =
        .error (.payload [] 4 (.unexpectedShape Payload.emptyArray)) := by
  intro settings log more
  have hlog : Source.IsWhole log := by decide +kernel
  obtain ⟨hfirst, hmarker⟩ : (run settings [] { content := log } .unlimited).sink.written =
      Utf8.encode "[[]]\n".toList ∧
      (run settings [] { content := log } .unlimited).result.toOption.map (·.markerFound) =
        some true := by
    decide +kernel
  obtain ⟨hrest, hrefused⟩ :
      let rest := run settings []
        { content := Utf8.encode "ready".toList ++ lineFeed :: more } .unlimited
      rest.sink.written = Utf8.encode "[[ ]]\n".toList ∧
        rest.result.map (fun _ => ()) =
          .error (.payload [] 3 (.unexpectedShape Payload.emptyArray)) := by
    decide +kernel
  obtain ⟨s, hs, hfound⟩ := exists_ok_of_toOption_map hmarker
  have h := run_append settings [] hlog more
  simp only [hs, hfound, if_true] at h
  obtain ⟨hwritten, hresult⟩ := h "ready".toList (by decide) (by decide) (by decide)
  refine ⟨hlog, ?_, ?_⟩
  · rw [hwritten, hfirst, hrest]
    decide
  · cases hr : (run settings []
        { content := Utf8.encode "ready".toList ++ lineFeed :: more } .unlimited).result with
    | ok t =>
      rw [hr] at hrefused
      cases hrefused
    | error e =>
      rw [hr] at hrefused hresult
      obtain ⟨k, hk, hshift⟩ := hresult
      have hone : k = 1 := Nat.succ.inj hk
      rw [hshift, hone, Except.error.inj hrefused]
      rfl

end Scan

end StoreLog
