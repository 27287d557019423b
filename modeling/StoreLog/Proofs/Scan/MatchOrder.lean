-- SUMMARY: What a scan comes to when its matches change places.
import StoreLog.Proofs.Scan.Collecting
import StoreLog.Proofs.Scan.WholeLines
import StoreLog.Proofs.StoreIndex

/-!
# The order of the matches

The lines after the marker line may come in any order. Whether a log is accepted does not
depend on it, and neither do the summary and the index; the payloads are written in the
order in which they come.
-/

namespace StoreLog

/-- A log of texts, each on a line of its own. -/
def Source.ofLines (lines : List Text) : Source where
  content := lines.flatMap fun line => Utf8.encode line ++ [lineFeed]

namespace Scan

attribute [local instance] trichotomous_text

variable {settings : ScanSettings} {file : Path} {s : ScanSummary} {lines others : List Text}

/-! ## The lines after the marker line -/

/-- A refused payload is refused wherever it comes. -/
theorem exists_ok_of_perm (h : others.Perm lines) (hs : s.markerFound = true) :
    (∃ t, (course settings file s (others.map .ok)).yield.2 = .ok t) ↔
      ∃ t, (course settings file s (lines.map .ok)).yield.2 = .ok t := by
  rw [exists_ok_of_collecting_iff hs, exists_ok_of_collecting_iff hs]
  exact forall_congr' fun p => imp_congr_left (h.filterMap _).mem_iff

theorem insertAll_perm (paths : SortedSet Text) {ps qs : List Text} (h : ps.Perm qs) :
    paths.insertAll ps = paths.insertAll qs := by
  apply SortedSet.ext
  intro x
  rw [SortedSet.mem_insertAll, SortedSet.mem_insertAll, h.mem_iff]

/-- Lines in another order have the same summary, and their payloads in that order. -/
theorem yield_course_perm (h : others.Perm lines) (hs : s.markerFound = true) {t : ScanSummary}
    (ht : (course settings file s (lines.map .ok)).yield.2 = .ok t) :
    (course settings file s (lines.map .ok)).yield.1 = payloadBytes (matched settings lines) ∧
      (course settings file s (others.map .ok)).yield =
        (payloadBytes (matched settings others), .ok t) := by
  have hmatched : (matched settings others).Perm (matched settings lines) := h.filterMap _
  have hlines := (exists_ok_of_collecting_iff hs).1 ⟨t, ht⟩
  have hothers := (exists_ok_of_collecting_iff hs).1 ((exists_ok_of_perm h hs).2 ⟨t, ht⟩)
  rw [yield_course_collecting hs hlines] at ht ⊢
  refine ⟨rfl, ?_⟩
  rw [yield_course_collecting hs hothers, h.length_eq, hmatched.length_eq,
    insertAll_perm _ (hmatched.flatMap_right storePaths)]
  exact congrArg (Prod.mk _) ht

theorem result_eq_ok_of_perm_iff (h : others.Perm lines) (hs : s.markerFound = true)
    {t : ScanSummary} :
    (course settings file s (others.map .ok)).yield.2 = .ok t ↔
      (course settings file s (lines.map .ok)).yield.2 = .ok t :=
  ⟨fun ht => congrArg Prod.snd (yield_course_perm h.symm hs ht).2,
    fun ht => congrArg Prod.snd (yield_course_perm h hs ht).2⟩

theorem splitOn_matched (h : ∀ line ∈ lines, '\n' ∉ line) :
    ((payloadBytes (matched settings lines)).splitOn lineFeed).dropLast =
      (matched settings lines).map Utf8.encode :=
  splitOn_payloadBytes fun _ hp => lineFeed_not_mem_of_mem_matched h hp

/-- Results that agree where they are there are the same but for the error. -/
theorem toOption_congr {ε α : Type} {r r' : Except ε α} (h : ∀ a, r' = .ok a ↔ r = .ok a) :
    r'.toOption = r.toOption := by
  cases r' with
  | ok a => rw [(h a).1 rfl]
  | error e' =>
    cases r with
    | ok a => cases (h a).2 rfl
    | error e => rfl

/-! ## Logs -/

section

variable {before : List Text} {m : Text} (hbefore : ∀ line ∈ before, ¬settings.marker <:+: line)
  (hm : settings.marker <:+: m)
include hbefore hm

variable (file) in
theorem run_ofLines (hfeed : ∀ line ∈ before ++ m :: lines, '\n' ∉ line)
    (hreturn : ∀ line ∈ before ++ m :: lines, line.getLast? ≠ some '\r') :
    let scan := run settings file (.ofLines (before ++ m :: lines)) .unlimited
    let collected := course settings file { linesRead := before.length + 1, markerFound := true }
      (lines.map .ok)
    scan.sink.written = collected.yield.1 ∧ scan.result = collected.yield.2 := by
  intro scan collected
  have hrun := run_unlimited settings file (.ofLines (before ++ m :: lines))
  rwa [Source.ofLines, Source.lines_flatMap_encode hfeed hreturn,
    yield_course_after_marker hbefore hm] at hrun

variable (file) in
/-- The lines after the first marker line can be put in any order: the log is accepted or not
as before, with the same summary and the same index, and its output has the same lines, in
the new order. -/
theorem run_perm {after other : List Text} (hfeed : ∀ line ∈ before ++ m :: after, '\n' ∉ line)
    (hreturn : ∀ line ∈ before ++ m :: after, line.getLast? ≠ some '\r')
    (hperm : other.Perm after) :
    let scan (lines : List Text) :=
      run settings file (.ofLines (before ++ m :: lines)) .unlimited
    let output (lines : List Text) := (scan lines).sink.written
    let index (lines : List Text) := (scan lines).result.toOption.map fun s =>
      (StoreIndex.write s.storePaths .unlimited).1.written
    ((∃ s, (scan other).result = .ok s) ↔ ∃ s, (scan after).result = .ok s) ∧
      index other = index after ∧
      ∀ s, (scan after).result = .ok s →
        (scan other).result = .ok s ∧
          output after = payloadBytes (matched settings after) ∧
          output other = payloadBytes (matched settings other) ∧
          ((output other).splitOn lineFeed).dropLast.Perm
            ((output after).splitOn lineFeed).dropLast := by
  intro scan output index
  have hlines : (before ++ m :: other).Perm (before ++ m :: after) :=
    (hperm.cons m).append_left before
  obtain ⟨houtput, hafter⟩ := run_ofLines file hbefore hm hfeed hreturn
  obtain ⟨houtput', hother⟩ := run_ofLines file hbefore hm
    (fun line h => hfeed line (hlines.subset h)) (fun line h => hreturn line (hlines.subset h))
  have hiff (s : ScanSummary) : (scan other).result = .ok s ↔ (scan after).result = .ok s := by
    rw [hother, hafter]
    exact result_eq_ok_of_perm_iff hperm rfl
  refine ⟨exists_congr hiff, congrArg (Option.map _) (toOption_congr hiff), fun s hs => ?_⟩
  obtain ⟨hpayloads, hyield⟩ := yield_course_perm hperm rfl (hafter.symm.trans hs)
  have hout : output after = payloadBytes (matched settings after) := houtput.trans hpayloads
  have hout' : output other = payloadBytes (matched settings other) :=
    houtput'.trans (congrArg Prod.fst hyield)
  have hsub : after ⊆ before ++ m :: after := by simp
  refine ⟨(hiff s).2 hs, hout, hout', ?_⟩
  rw [hout, hout', splitOn_matched fun line h => hfeed line (hsub h),
    splitOn_matched fun line h => hfeed line (hsub (hperm.subset h))]
  exact (hperm.filterMap _).map _

end

/-- Two payloads with a path in common, noise and another marker line, in both directions. -/
theorem run_perm_reverse :
    let settings : ScanSettings := ⟨"ready".toList, "> ".toList⟩
    let lines : List Text :=
      ["> ".toList ++ Payload.render [⟨⟨['b']⟩⟩], "is ready".toList, "noise".toList,
        "> ".toList ++ Payload.render [⟨⟨['a']⟩⟩, ⟨⟨['b']⟩⟩]]
    let scan (lines : List Text) :=
      run settings [] (.ofLines (["boot".toList] ++ "ready".toList :: lines)) .unlimited
    ∃ s, (scan lines).result = .ok s ∧ (scan lines.reverse).result = .ok s ∧
      s.storePaths.toList = [['a'], ['b']] ∧
      (scan lines.reverse).sink.written ≠ (scan lines).sink.written := by
  intro settings lines scan
  have hscan : (scan lines).result.toOption.map (·.storePaths.toList) = some [['a'], ['b']] := by
    decide +kernel
  obtain ⟨s, hs, hpaths⟩ := exists_ok_of_toOption_map hscan
  have hbefore : ∀ line ∈ ["boot".toList], ¬settings.marker <:+: line := by decide
  have hm : settings.marker <:+: "ready".toList := by decide
  obtain ⟨-, -, hsame⟩ := run_perm [] hbefore hm (by decide +kernel) (by decide +kernel)
    (List.reverse_perm lines)
  exact ⟨s, hs, (hsame s hs).1, hpaths, by decide +kernel⟩

end Scan

end StoreLog
