-- SUMMARY: When an index is a manifest of the paths that it lists.
import StoreLog.Proofs.Manifest
import StoreLog.Proofs.StoreIndex

/-!
# Indexes as manifests

An index can be given to the dumper as its manifest. All its paths are then dumped, each
with the number of its line, exactly if every path could have been listed in a manifest
by hand: a manifest has no empty path, none of more than one line, and none with blanks
around it.
-/

namespace StoreLog

namespace Manifest

variable {p : Text} {ps : List Text}

/-- Sources that stand on a line each are numbered without a gap. -/
theorem entriesFrom_of_isSource (h : ∀ p ∈ ps, IsSource p) (n : Nat) :
    entriesFrom n ps = (ps.zipIdx n).map fun (p, i) => ⟨p, i⟩ := by
  induction ps generalizing n with
  | nil => rfl
  | cons p ps ih =>
    rw [List.forall_mem_cons] at h
    simp [entriesFrom, h.1.trim_eq_self, h.1.ne_nil, ih h.2]

/-- A trimmed text of sources loses only its last line feed. -/
theorem trim_flatMap_lineFeed (h : ∀ p ∈ ps, IsSource p) (hp : IsSource p) :
    Text.trim ((ps ++ [p]).flatMap (· ++ ['\n'])) = ps.flatMap (· ++ ['\n']) ++ p := by
  have hlines : (ps ++ [p]).flatMap (· ++ ['\n']) = (ps.flatMap (· ++ ['\n']) ++ p) ++ ['\n'] := by
    simp
  rw [hlines, Text.trim_concat_of_isBlank (by decide), Text.trim_eq_self_iff]
  constructor
  · cases ps with
    | nil => simpa using hp.head_not_blank
    | cons q ps =>
      have hq : IsSource q := h q List.mem_cons_self
      obtain ⟨d, r, rfl⟩ := List.exists_cons_of_ne_nil hq.ne_nil
      simpa using hq.head_not_blank
  · rw [List.getLast?_append_of_ne_nil _ hp.ne_nil]
    exact hp.last_not_blank

theorem parse_flatMap_lineFeed (h : ∀ p ∈ ps, IsSource p) :
    parse (ps.flatMap (· ++ ['\n'])) = (ps.zipIdx 1).map fun (p, i) => ⟨p, i⟩ := by
  rcases List.eq_nil_or_concat ps with rfl | ⟨qs, p, rfl⟩
  · rfl
  · rw [List.concat_eq_append, List.forall_mem_append, List.forall_mem_singleton] at h
    obtain ⟨hqs, hp⟩ := h
    rw [List.concat_eq_append, parse, trim_flatMap_lineFeed hqs hp,
      splitOn_flatMap_append fun q hq => (hqs q hq).lineFeed_not_mem,
      List.splitOn_eq_singleton hp.lineFeed_not_mem]
    refine entriesFrom_of_isSource (fun q hq => ?_) 1
    rcases List.mem_append.1 hq with hq | hq
    · exact hqs q hq
    · exact List.mem_singleton.1 hq ▸ hp

end Manifest

namespace StoreIndex

/-- An index is the text of its lines. -/
theorem encode_lines (paths : SortedSet Text) :
    Utf8.encode (paths.toList.flatMap (· ++ ['\n'])) = render paths := by
  have hchar : Utf8.encode ['\n'] = [lineFeed] := rfl
  rw [render]
  induction paths.toList with
  | nil => rfl
  | cons p ps ih => simp only [List.flatMap_cons, Utf8.encode_append, ih, hchar]

/-- Read as a manifest, an index gives its paths, in order, exactly if each of them is not
empty, has no line feed, and neither begins nor ends with a blank. Its entries then have the
numbers from one on. -/
theorem sources_of_index_iff (paths : SortedSet Text) :
    ∃ text, Utf8.decode (write paths .unlimited).1.written = some text ∧
      ((Manifest.parse text).map (·.source) = paths.toList ↔
        ∀ p ∈ paths, p ≠ [] ∧ '\n' ∉ p ∧ (∀ c ∈ p.head?, Text.isBlank c = false) ∧
          ∀ c ∈ p.getLast?, Text.isBlank c = false) ∧
      ((Manifest.parse text).map (·.source) = paths.toList →
        Manifest.parse text = (paths.toList.zipIdx 1).map fun (p, i) => ⟨p, i⟩) := by
  have hsources {text : Text} (h : (Manifest.parse text).map (·.source) = paths.toList) (p : Text)
      (hp : p ∈ paths) : Manifest.IsSource p := by
    rw [Manifest.map_source_parse] at h
    exact Manifest.isSource_of_mem_listed (h ▸ SortedSet.mem_toList.2 hp)
  refine ⟨paths.toList.flatMap (· ++ ['\n']), ?_, ⟨fun h p hp => ?_, fun h => ?_⟩, fun h => ?_⟩
  · rw [written_write_unlimited, ← encode_lines, Utf8.decode_encode]
  · obtain ⟨hne, hlf, hhead, hlast⟩ := hsources h p hp
    exact ⟨hne, hlf, hhead, hlast⟩
  · have hall (p : Text) (hp : p ∈ paths.toList) : Manifest.IsSource p := by
      obtain ⟨hne, hlf, hhead, hlast⟩ := h p hp
      exact ⟨hne, hlf, hhead, hlast⟩
    rw [Manifest.parse_flatMap_lineFeed hall, List.map_map]
    exact List.zipIdx_map_fst 1 paths.toList
  · exact Manifest.parse_flatMap_lineFeed (hsources h)

end StoreIndex

end StoreLog
