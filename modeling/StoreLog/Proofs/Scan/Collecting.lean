-- SUMMARY: The states of a scan: searching for the marker, then collecting payloads.
import StoreLog.Proofs.Scan.Course
import StoreLog.Proofs.Scan.Payloads

/-!
# Searching and collecting

The two states of a scan, over lines that can all be read. While it searches, it counts the
lines. Once it has found the marker, it comes to the payloads of the lines that follow, and
it fails exactly if one of these payloads is refused.
-/

namespace StoreLog.Scan

attribute [local instance] trichotomous_text

variable {settings : ScanSettings} {file : Path} {s : ScanSummary} {line p : Text}
  {lines : List Text}

/-! ## One line -/

theorem stepYield_searching (hs : s.markerFound = false) :
    stepYield settings file s line =
      ([], .ok
        { s with
          linesRead := s.linesRead + 1
          markerFound := Text.contains settings.marker line }) := by
  rw [stepYield_eq, hs, if_neg Bool.false_ne_true]

theorem stepYield_noise (hs : s.markerFound = true) (hp : payload? settings line = none) :
    stepYield settings file s line = ([], .ok { s with linesRead := s.linesRead + 1 }) := by
  rw [stepYield_eq, if_pos hs, hp]

theorem stepYield_payload (hs : s.markerFound = true) (hp : payload? settings line = some p)
    {records : List PhraseMatch} (hr : Payload.parse p = .ok records) :
    stepYield settings file s line =
      (Utf8.encode p ++ [lineFeed], .ok
        { linesRead := s.linesRead + 1
          matchesWritten := s.matchesWritten + 1
          markerFound := true
          storePaths := s.storePaths.insertAll (records.map (·.store.path)) }) := by
  rw [stepYield_eq, if_pos hs, hp]
  simp only [hr]

theorem stepYield_refused (hs : s.markerFound = true) (hp : payload? settings line = some p)
    {e : PayloadError} (hr : Payload.parse p = .error e) :
    stepYield settings file s line = ([], .error (.payload file (s.linesRead + 1) e)) := by
  rw [stepYield_eq, if_pos hs, hp]
  simp only [hr]

/-! ## Searching -/

/-- Lines without the marker are only counted. -/
theorem yield_course_searching (hs : s.markerFound = false)
    (h : ∀ line ∈ lines, ¬settings.marker <:+: line) :
    (course settings file s (lines.map .ok)).yield =
      ([], .ok { s with linesRead := s.linesRead + lines.length }) := by
  induction lines generalizing s with
  | nil => exact yield_course_nil s
  | cons line lines ih =>
    rw [List.forall_mem_cons] at h
    have hnot : Text.contains settings.marker line = false :=
      Bool.eq_false_iff.2 (mt Text.contains_iff.1 h.1)
    rw [List.map_cons, yield_course_ok, stepYield_searching hs, Yield.andThen_of_ok rfl,
      ih hnot h.2]
    simp [hs, hnot, Nat.add_assoc, Nat.add_comm 1]

/-- A scan of a log with a first marker line is one of the lines after it. -/
theorem yield_course_after_marker {before : List Text} {m : Text}
    (hbefore : ∀ line ∈ before, ¬settings.marker <:+: line) (hm : settings.marker <:+: m)
    (lines : List Text) :
    (course settings file {} ((before ++ m :: lines).map .ok)).yield =
      (course settings file { linesRead := before.length + 1, markerFound := true }
        (lines.map .ok)).yield := by
  rw [List.map_append, List.map_cons, yield_course_append, yield_course_searching rfl hbefore,
    Yield.andThen_of_ok rfl, yield_course_ok, stepYield_searching rfl, Text.contains_iff.2 hm,
    Yield.andThen_of_ok rfl]
  simp

/-! ## Collecting -/

/-- The payloads of lines that come after the marker line. -/
def matched (settings : ScanSettings) (lines : List Text) : List Text :=
  lines.filterMap (payload? settings)

theorem matched_cons_noise (hp : payload? settings line = none) (lines : List Text) :
    matched settings (line :: lines) = matched settings lines :=
  List.filterMap_cons_none hp

theorem matched_cons_payload (hp : payload? settings line = some p) (lines : List Text) :
    matched settings (line :: lines) = p :: matched settings lines :=
  List.filterMap_cons_some hp

theorem lineFeed_not_mem_of_mem_matched (h : ∀ line ∈ lines, '\n' ∉ line)
    (hp : p ∈ matched settings lines) : lineFeed ∉ Utf8.encode p := by
  obtain ⟨line, hline, hp⟩ := List.mem_filterMap.1 hp
  rw [payload?_eq] at hp
  split at hp
  · obtain rfl := Option.some.inj hp
    rw [Utf8.lineFeed_mem_encode]
    exact fun hfeed =>
      h line hline (List.mem_of_mem_drop ((Text.trim_infix _).subset hfeed))
  · cases hp

/-- Lines come to their payloads if all of these are accepted. -/
theorem yield_course_collecting (hs : s.markerFound = true)
    (h : ∀ p ∈ matched settings lines, ∃ records, Payload.parse p = .ok records) :
    (course settings file s (lines.map .ok)).yield =
      (payloadBytes (matched settings lines), .ok
        { linesRead := s.linesRead + lines.length
          matchesWritten := s.matchesWritten + (matched settings lines).length
          markerFound := true
          storePaths :=
            s.storePaths.insertAll ((matched settings lines).flatMap storePaths) }) := by
  induction lines generalizing s with
  | nil =>
    obtain ⟨n, k, found, paths⟩ := s
    obtain rfl : found = true := hs
    exact yield_course_nil _
  | cons line lines ih =>
    rw [List.map_cons, yield_course_ok]
    cases hp : payload? settings line with
    | none =>
      rw [matched_cons_noise hp] at h ⊢
      rw [stepYield_noise hs hp, Yield.andThen_of_ok rfl,
        ih (s := { s with linesRead := s.linesRead + 1 }) hs h]
      simp [Nat.add_assoc, Nat.add_comm 1]
    | some p =>
      rw [matched_cons_payload hp, List.forall_mem_cons] at h
      obtain ⟨⟨records, hr⟩, h⟩ := h
      have hpaths : storePaths p = records.map (·.store.path) := by simp only [storePaths, hr]
      rw [matched_cons_payload hp, stepYield_payload hs hp hr, Yield.andThen_of_ok rfl, ih rfl h]
      simp [payloadBytes, hpaths, SortedSet.insertAll_append, Nat.add_assoc, Nat.add_comm 1]

/-- No line that follows makes up for a payload that is refused. -/
theorem exists_ok_of_collecting_iff (hs : s.markerFound = true) :
    (∃ t, (course settings file s (lines.map .ok)).yield.2 = .ok t) ↔
      ∀ p ∈ matched settings lines, ∃ records, Payload.parse p = .ok records := by
  refine ⟨?_, fun h => ⟨_, congrArg Prod.snd (yield_course_collecting hs h)⟩⟩
  induction lines generalizing s with
  | nil => exact fun _ _ hp => absurd hp List.not_mem_nil
  | cons line lines ih =>
    rw [List.map_cons, yield_course_ok]
    cases hp : payload? settings line with
    | none =>
      rw [matched_cons_noise hp, stepYield_noise hs hp, Yield.andThen_of_ok rfl]
      exact ih (s := { s with linesRead := s.linesRead + 1 }) hs
    | some p =>
      rw [matched_cons_payload hp, List.forall_mem_cons]
      cases hr : Payload.parse p with
      | error e =>
        rw [stepYield_refused hs hp hr, Yield.andThen_of_error rfl]
        rintro ⟨t, ht⟩
        cases ht
      | ok records =>
        rw [stepYield_payload hs hp hr, Yield.andThen_of_ok rfl]
        exact fun ht => ⟨⟨records, rfl⟩, ih rfl ht⟩

end StoreLog.Scan
