-- SUMMARY: Scanning an output of a scan gives it back.
import StoreLog.Proofs.Scan.Collecting
import StoreLog.Proofs.Scan.WholeLines
import StoreLog.Proofs.StoreIndex

/-!
# Scanning an output

The output of a scan has all that the scan has taken from the log: put after a marker line,
with the prefix before each of its lines, it is scanned to the same output and to the same
store paths.
-/

namespace StoreLog.Scan

attribute [local instance] trichotomous_text

variable {settings : ScanSettings} {file : Path}

/-- A log that has payloads after a marker line, each on a line with the prefix. -/
def logOf (settings : ScanSettings) (m : Text) (ps : List Bytes) : Bytes :=
  Utf8.encode m ++ lineFeed ::
    ps.flatMap fun p => Utf8.encode settings.matchPrefix ++ p ++ [lineFeed]

/-! ## Payload lines -/

/-- A trimmed payload is what is left of its line. -/
theorem payload?_append {p : Text} (hp : Text.trim p = p) :
    payload? settings (settings.matchPrefix ++ p) = some p := by
  rw [payload?_eq, if_pos (List.prefix_append _ _), List.drop_left, hp]

theorem matched_append_payloads {ps : List Text} (htrim : ∀ p ∈ ps, Text.trim p = p) :
    matched settings (ps.map (settings.matchPrefix ++ ·)) = ps := by
  induction ps with
  | nil => rfl
  | cons p ps ih =>
    rw [List.forall_mem_cons] at htrim
    rw [List.map_cons, matched_cons_payload (payload?_append htrim.1), ih htrim.2]

/-- Lines that are payloads are all taken. -/
theorem yield_course_payloads {s : ScanSummary} (hs : s.markerFound = true) {ps : List Text}
    (htrim : ∀ p ∈ ps, Text.trim p = p)
    (hparse : ∀ p ∈ ps, ∃ records, Payload.parse p = .ok records) :
    (course settings file s (ps.map fun p => .ok (settings.matchPrefix ++ p))).yield =
      (payloadBytes ps, .ok
        { linesRead := s.linesRead + ps.length
          matchesWritten := s.matchesWritten + ps.length
          markerFound := true
          storePaths := s.storePaths.insertAll (ps.flatMap storePaths) }) := by
  have hlines : ps.map (fun p => .ok (settings.matchPrefix ++ p)) =
      (ps.map (settings.matchPrefix ++ ·)).map (.ok : Text → Except IoError Text) :=
    (List.map_map ..).symm
  have hmatched : matched settings (ps.map (settings.matchPrefix ++ ·)) = ps :=
    matched_append_payloads htrim
  rw [hlines, yield_course_collecting hs (by rwa [hmatched]), hmatched, List.length_map]

theorem getLast?_append_payload {p : Text} (hp : p ≠ []) (htrim : Text.trim p = p) (s : Text) :
    (s ++ p).getLast? ≠ some '\r' := by
  rw [List.getLast?_append_of_ne_nil s hp]
  intro hreturn
  have hblank := (Text.trim_eq_self_iff.1 htrim).2 '\r' hreturn
  exact absurd hblank (by decide)

section

variable {m : Text} (hm : settings.marker <:+: m) (hfeed : '\n' ∉ m)
  (hreturn : m.getLast? ≠ some '\r')
include hfeed hreturn

theorem lines_logOf {ps : List Text} (hline : ∀ p ∈ ps, '\n' ∉ settings.matchPrefix ++ p)
    (htrim : ∀ p ∈ ps, Text.trim p = p) (hnil : ∀ p ∈ ps, p ≠ []) :
    Source.lines { content := logOf settings m (ps.map Utf8.encode) } =
      .ok m :: ps.map fun p => .ok (settings.matchPrefix ++ p) := by
  have htexts : (ps.map Utf8.encode).flatMap
      (fun p => Utf8.encode settings.matchPrefix ++ p ++ [lineFeed]) =
      (ps.map (settings.matchPrefix ++ ·)).flatMap fun t => Utf8.encode t ++ [lineFeed] := by
    simp only [List.flatMap_map, Utf8.encode_append]
  rw [logOf, Source.lines_encode_append hfeed hreturn, htexts, Source.lines_flatMap_encode,
    List.map_map]
  · rfl
  · intro t ht
    obtain ⟨p, hp, rfl⟩ := List.mem_map.1 ht
    exact hline p hp
  · intro t ht
    obtain ⟨p, hp, rfl⟩ := List.mem_map.1 ht
    exact getLast?_append_payload (hnil p hp) (htrim p hp) _

include hm

variable (file) in
/-- A log made of payloads that are accepted is scanned to these payloads. -/
theorem run_logOf {ps : List Text} (hline : ∀ p ∈ ps, '\n' ∉ settings.matchPrefix ++ p)
    (htrim : ∀ p ∈ ps, Text.trim p = p)
    (hparse : ∀ p ∈ ps, ∃ records, Payload.parse p = .ok records) :
    let scan := run settings file { content := logOf settings m (ps.map Utf8.encode) } .unlimited
    scan.sink.written = payloadBytes ps ∧
      scan.result = .ok
        { linesRead := ps.length + 1
          matchesWritten := ps.length
          markerFound := true
          storePaths := .ofList (ps.flatMap storePaths) } := by
  have hnil (p : Text) (hp : p ∈ ps) : p ≠ [] := by
    obtain ⟨records, hr⟩ := hparse p hp
    exact Payload.ne_nil_of_parse hr
  obtain ⟨hwritten, hresult⟩ := run_unlimited settings file
    { content := logOf settings m (ps.map Utf8.encode) }
  rw [lines_logOf hfeed hreturn hline htrim hnil, yield_course_ok, stepYield_marker hm,
    Yield.andThen_of_ok rfl, yield_course_payloads rfl htrim hparse] at hwritten hresult
  refine ⟨hwritten, ?_⟩
  rw [hresult, Nat.add_comm, Nat.zero_add]
  rfl

end

/-! ## Outputs -/

/-- The output of a log that is accepted loses nothing: its lines, each after the prefix, make
with any marker line before them a log with the same output and the same store paths. -/
theorem run_rescan {settings : ScanSettings} {file : Path} {content : Bytes} {s : ScanSummary}
    (h : (run settings file { content } .unlimited).result = .ok s) {m : Text}
    (hm : settings.marker <:+: m) (hfeed : '\n' ∉ m) (hreturn : m.getLast? ≠ some '\r') :
    let output := (run settings file { content } .unlimited).sink.written
    let ps := (output.splitOn lineFeed).dropLast
    let again := run settings file { content := logOf settings m ps } .unlimited
    output = ps.flatMap (· ++ [lineFeed]) ∧
      again.sink.written = output ∧
      again.result = .ok
        { linesRead := ps.length + 1
          matchesWritten := ps.length
          markerFound := true
          storePaths := s.storePaths } := by
  intro output ps again
  let lines := Source.lines { content }
  obtain ⟨hwritten, hresult⟩ :=
    run_of_isReliable settings file { content } Sink.isReliable_unlimited
  have href : reference settings file lines = (output, .ok s) :=
    Prod.ext hwritten.symm (hresult.symm.trans h)
  obtain ⟨hfault, hout, hs⟩ := reference_eq_ok_iff.1 href
  have hfeed' (p : Text) (hp : p ∈ payloads settings lines) : lineFeed ∉ Utf8.encode p :=
    lineFeed_not_mem_of_mem_payloads hp
  have hps : ps = (payloads settings lines).map Utf8.encode := by
    simp only [ps, hout]
    exact splitOn_payloadBytes hfeed'
  have hline (p : Text) (hp : p ∈ payloads settings lines) : '\n' ∉ settings.matchPrefix ++ p := by
    rw [List.mem_append, not_or, ← Utf8.lineFeed_mem_encode (s := p)]
    exact ⟨lineFeed_not_mem_matchPrefix hp, hfeed' p hp⟩
  obtain ⟨hwritten', hresult'⟩ := run_logOf file hm hfeed hreturn hline
    (fun p hp => trim_of_mem_payloads hp) (fun p hp => exists_parse_of_mem_payloads hfault hp)
  rw [← hps] at hwritten' hresult'
  refine ⟨?_, ?_, ?_⟩
  · rw [hout, hps, List.flatMap_map]
    rfl
  · rw [hwritten', hout]
  · rw [hresult', hps, hs, List.length_map]
    rfl

/-- Blanks around a payload, noise and the startup section are gone in the second log. -/
theorem run_rescan_trimmed :
    let settings : ScanSettings := ⟨"ready".toList, "> ".toList⟩
    let content := Utf8.encode "boot\nready\n>  [[]] \r\nnoise\n".toList
    let again := run settings []
      { content := logOf settings "is ready".toList [Utf8.encode "[[]]".toList] } .unlimited
    (run settings [] { content } .unlimited).result.toOption.map (·.linesRead) = some 4 ∧
      again.sink.written = Utf8.encode "[[]]\n".toList ∧
      again.result.toOption.map (·.linesRead) = some 2 := by
  intro settings content again
  obtain ⟨hfirst, hread⟩ : (run settings [] { content } .unlimited).sink.written =
      Utf8.encode "[[]]\n".toList ∧
      (run settings [] { content } .unlimited).result.toOption.map (·.linesRead) = some 4 := by
    decide +kernel
  obtain ⟨s, hs, -⟩ := exists_ok_of_toOption_map hread
  obtain ⟨-, hwritten, hresult⟩ :=
    run_rescan hs (m := "is ready".toList) (by decide) (by decide) (by decide)
  have hlines : ((Utf8.encode "[[]]\n".toList).splitOn lineFeed).dropLast =
      [Utf8.encode "[[]]".toList] := by
    decide
  rw [hfirst, hlines] at hwritten hresult
  refine ⟨hread, hwritten, ?_⟩
  rw [hresult]
  rfl

end StoreLog.Scan
