-- SUMMARY: What is so of each payload of a log.
import StoreLog.Proofs.Scan.Reference
import StoreLog.Proofs.Text.Trim

/-!
# Payloads of a log

What holds of every payload of a log: it is trimmed and is one line and, in a log
that is accepted, it can be parsed. The store paths of a summary are the ones that
the payloads name.
-/

namespace StoreLog

/-- An accepted payload has at least its brackets. -/
theorem Payload.ne_nil_of_parse {p : Text} {records : List PhraseMatch}
    (h : Payload.parse p = .ok records) : p ≠ [] := by
  rintro rfl
  have hnil : (Payload.parse []).toOption = none := rfl
  rw [h] at hnil
  cases hnil

namespace Scan

variable {settings : ScanSettings} {file : Path} {lines : List Line} {p : Text}

theorem mem_payloads_iff :
    p ∈ payloads settings lines ↔ ∃ i < lines.length, payloadAt? settings lines i = some p := by
  simp [payloads, List.mem_filterMap]

theorem exists_line_of_mem_payloads (h : p ∈ payloads settings lines) :
    ∃ s, .ok s ∈ lines ∧ settings.matchPrefix <+: s ∧
      p = Text.trim (s.drop settings.matchPrefix.length) := by
  obtain ⟨i, -, hi⟩ := mem_payloads_iff.1 h
  unfold payloadAt? at hi
  split at hi
  · next s hs =>
    split at hi
    · next hpayload =>
      exact ⟨s, List.mem_of_getElem? hs, hpayload.2, (Option.some.inj hi).symm⟩
    · cases hi
  · cases hi

theorem trim_of_mem_payloads (h : p ∈ payloads settings lines) : Text.trim p = p := by
  obtain ⟨s, -, -, rfl⟩ := exists_line_of_mem_payloads h
  exact Text.trim_trim _

theorem lineFeed_not_mem_of_mem_payloads {content : Bytes}
    (h : p ∈ payloads settings (Source.lines { content })) : lineFeed ∉ Utf8.encode p := by
  obtain ⟨s, hs, -, rfl⟩ := exists_line_of_mem_payloads h
  rw [Utf8.lineFeed_mem_encode]
  intro hp
  exact Source.lineFeed_not_mem_of_mem_lines hs
    (List.mem_of_mem_drop ((Text.trim_infix _).subset hp))

theorem lineFeed_not_mem_matchPrefix {content : Bytes}
    (h : p ∈ payloads settings (Source.lines { content })) : '\n' ∉ settings.matchPrefix := by
  obtain ⟨s, hs, hfront, -⟩ := exists_line_of_mem_payloads h
  intro hfeed
  exact Source.lineFeed_not_mem_of_mem_lines hs (hfront.subset hfeed)

/-- A log that is accepted has payloads that are accepted. -/
theorem exists_parse_of_mem_payloads (hf : firstFault? settings file lines = none)
    (h : p ∈ payloads settings lines) : ∃ records, Payload.parse p = .ok records := by
  obtain ⟨i, hi, hp⟩ := mem_payloads_iff.1 h
  have hnone := firstFault?_eq_none_iff.1 hf i hi
  cases hparse : Payload.parse p with
  | ok records => exact ⟨records, rfl⟩
  | error e =>
    unfold faultAt? at hnone
    split at hnone
    · cases hnone
    · simp [hp, hparse] at hnone

theorem mem_storePaths_iff {x : Text} :
    x ∈ storePaths p ↔ ∃ records, Payload.parse p = .ok records ∧
      x ∈ records.map (·.store.path) := by
  unfold storePaths
  cases Payload.parse p with
  | error e => simp
  | ok records => simp

/-- The lines of an output are its payloads. -/
theorem splitOn_payloadBytes {ps : List Text} (h : ∀ p ∈ ps, lineFeed ∉ Utf8.encode p) :
    ((payloadBytes ps).splitOn lineFeed).dropLast = ps.map Utf8.encode := by
  have hbytes : payloadBytes ps = (ps.map Utf8.encode).flatMap (· ++ [lineFeed]) ++ [] := by
    rw [List.append_nil, List.flatMap_map, payloadBytes]
  rw [hbytes, splitOn_flatMap_append (by simpa using h) [], List.splitOn_nil, List.dropLast_concat]

/-- A summary has the store paths of all payloads. -/
theorem mem_storePaths_summary_iff {x : Text} :
    x ∈ (summary settings lines).storePaths ↔ ∃ p ∈ payloads settings lines,
      ∃ records, Payload.parse p = .ok records ∧ x ∈ records.map (·.store.path) := by
  simp only [summary, SortedSet.mem_ofList, List.mem_flatMap, mem_storePaths_iff]

end Scan

end StoreLog
