-- SUMMARY: The bytes of an index, and when its lines can be told apart.
import Mathlib.Data.Char
import Mathlib.Data.List.Basic
import Mathlib.Data.List.Lex
import StoreLog.Proofs.Scan.Lines
import StoreLog.Proofs.Sink
import StoreLog.Proofs.Text.Split
import StoreLog.Proofs.Text.Utf8
import StoreLog.Scan.Basic
import StoreLog.StoreIndex

/-!
# What an index comes to

An index that is written without a fault is its rendering, and what a writer of little
room has of it is the beginning. The order of the texts of a set is the order of their
bytes, so its lines are in increasing order. The lines are the paths only if no path has a
line feed of its own: a path that has one takes more than one line, and another set can
then have the same index.
-/

namespace StoreLog

/-- To know a part of a result is to know that there is one. -/
theorem exists_ok_of_toOption_map {ε α β : Type} {r : Except ε α} {f : α → β} {b : β}
    (h : r.toOption.map f = some b) : ∃ a, r = .ok a ∧ f a = b := by
  cases r with
  | error e => cases h
  | ok a => exact ⟨a, rfl, Option.some.inj h⟩

namespace StoreIndex

theorem output_acts (paths : SortedSet Text) : Act.output (acts paths) = render paths := by
  simp [acts, render, Act.output, Act.bytes, List.flatMap_assoc]

theorem write_of_isReliable (paths : SortedSet Text) {s : Sink} (h : s.IsReliable) :
    (write paths s).1.written = s.taken ++ render paths ∧ (write paths s).2 = .ok paths.size := by
  have hw := Sink.written_close_perform h (acts paths)
  obtain ⟨hf, -, -⟩ := Sink.perform_of_isReliable h (acts paths)
  rw [output_acts] at hw
  exact ⟨hw, by simp only [write, hf]⟩

theorem written_write_unlimited (paths : SortedSet Text) :
    (write paths .unlimited).1.written = render paths := by
  obtain ⟨h, -⟩ := write_of_isReliable paths Sink.isReliable_unlimited
  rwa [Sink.taken_unlimited, List.nil_append] at h

theorem pairwise_encode (paths : SortedSet Text) :
    (paths.toList.map Utf8.encode).Pairwise (· < ·) := by
  rw [List.pairwise_map]
  exact paths.sorted.imp Utf8.encode_lt_encode

/-! ## Writing an index -/

theorem write_eq_ok_iff {paths : SortedSet Text} {s : Sink} {count : Nat} :
    (write paths s).2 = .ok count ↔
      count = paths.size ∧ (s.perform (acts paths)).fault = none := by
  rw [write]
  cases (s.perform (acts paths)).fault with
  | none => simp [eq_comm]
  | some e => simp

/-- A writer that takes `n` bytes in all has the first ones of an index, be there a buffer before
it or not. The flush at the end tells if there were more. -/
theorem write_of_hasTaken {s : Sink} {n : Nat} (h : s.HasTaken n [] s) (paths : SortedSet Text) :
    (write paths s).1.written = (render paths).take n ∧
      ∀ count, (write paths s).2 = .ok count ↔
        count = paths.size ∧ (render paths).length ≤ n ∧ s.flushFault = none := by
  let lines := paths.toList.flatMap fun p => [Act.write (Utf8.encode p), .write [lineFeed]]
  have hflush : .flush ∉ lines := by simp [lines]
  have hacts : acts paths = lines ++ .flush :: [].map .note := rfl
  have houtput : Act.output lines = render paths := by
    rw [← output_acts, hacts, Act.output_append]
    exact (List.append_nil _).symm
  obtain ⟨hwritten, hfault⟩ := Sink.perform_append_flush h hflush []
  rw [← hacts, houtput, List.nil_append] at hwritten hfault
  refine ⟨hwritten, fun count => ?_⟩
  rw [write_eq_ok_iff, hfault]
  by_cases hfit : (render paths).length ≤ n <;> simp [hfit]

/-- An index has each path of its set once, in increasing order of the bytes and so of the
characters, in whatever order and however often the paths were put into the set. A writer that
never fails has all lines, and one that takes `n` bytes has the first `n` bytes of them; with or
without a buffer, the second one reports success exactly if all of them fit and the flush
succeeds. -/
theorem write_ofList (given : List Text) :
    ∃ paths : List Text,
      (∀ p, p ∈ paths ↔ p ∈ given) ∧
      (paths.map Utf8.encode).Pairwise (· < ·) ∧
      (∀ p q : Text, Utf8.encode p < Utf8.encode q ↔ p < q) ∧
      let index := paths.flatMap fun p => Utf8.encode p ++ [lineFeed]
      (∀ capacity,
        let w := write (.ofList given) { capacity }
        w.1.written = index ∧ w.2 = .ok paths.length) ∧
      ∀ n capacity fault flushFault,
        let w := write (.ofList given) { room := some n, capacity, fault, flushFault }
        w.1.written = index.take n ∧
          ∀ count, w.2 = .ok count ↔
            count = paths.length ∧ index.length ≤ n ∧ flushFault = none := by
  refine ⟨(SortedSet.ofList given).toList, fun p => ?_, pairwise_encode _,
    fun p q => Utf8.encode_lt_encode_iff, fun capacity => ?_, ?_⟩
  · rw [SortedSet.mem_toList, SortedSet.mem_ofList]
  · exact write_of_isReliable _ ⟨rfl, rfl⟩
  · intro n capacity fault flushFault w
    exact write_of_hasTaken (Sink.hasTaken_fresh n capacity fault flushFault) (.ofList given)

/-! ## Reading an index back -/

/-- An index is read back at its line feeds exactly if no path has one. -/
theorem splitOn_render_iff (paths : SortedSet Text) :
    (render paths).splitOn lineFeed = paths.toList.map Utf8.encode ++ [[]] ↔
      ∀ p ∈ paths, '\n' ∉ p := by
  constructor
  · intro h p hp
    rw [← Utf8.lineFeed_mem_encode]
    have hline : Utf8.encode p ∈ (render paths).splitOn lineFeed :=
      h ▸ List.mem_append_left _ (List.mem_map_of_mem hp)
    exact not_mem_of_mem_splitOn hline
  · intro h
    have hlines : render paths = (paths.toList.map Utf8.encode).flatMap (· ++ [lineFeed]) := by
      rw [List.flatMap_map, render]
    rw [hlines, ← List.append_nil (List.flatMap _ _)]
    refine splitOn_flatMap_append (fun l hl => ?_) []
    obtain ⟨p, hp, rfl⟩ := List.mem_map.1 hl
    exact mt Utf8.lineFeed_mem_encode.1 (h p hp)

theorem eq_of_map_encode_eq {paths others : SortedSet Text}
    (h : paths.toList.map Utf8.encode = others.toList.map Utf8.encode) : paths = others := by
  exact SortedSet.ext_toList (List.map_injective_iff.2 (fun p q hpq => Utf8.encode_inj.1 hpq) h)

/-- An index has the paths of its set in increasing order of their bytes. Cut at its line
feeds, it gives back these paths exactly if none of them has a line feed, and then no other
such set has the same index. -/
theorem readable_index_iff (paths : SortedSet Text) :
    let index (paths : SortedSet Text) := (write paths .unlimited).1.written
    let isReadable (paths : SortedSet Text) :=
      (index paths).splitOn lineFeed = paths.toList.map Utf8.encode ++ [[]]
    (isReadable paths ↔ ∀ p ∈ paths, '\n' ∉ p) ∧
      (paths.toList.map Utf8.encode).Pairwise (· < ·) ∧
      ∀ others, (∀ p ∈ paths, '\n' ∉ p) → (∀ p ∈ others, '\n' ∉ p) →
        index others = index paths → others = paths := by
  intro index isReadable
  refine ⟨?_, pairwise_encode paths, fun others hpaths hothers heq => ?_⟩
  · simp only [isReadable, index, written_write_unlimited]
    exact splitOn_render_iff paths
  · simp only [index, written_write_unlimited] at heq
    have hlines : others.toList.map Utf8.encode ++ [[]] = paths.toList.map Utf8.encode ++ [[]] := by
      rw [← (splitOn_render_iff others).2 hothers, ← (splitOn_render_iff paths).2 hpaths, heq]
    exact eq_of_map_encode_eq (List.append_cancel_right hlines)

/-- A log whose only payload names the given paths. -/
def logNaming (paths : List Text) : Source where
  content := Utf8.encode ("dev server ready\nPHRASEMATCH ".toList ++
    Payload.render (paths.map fun p => ⟨⟨p⟩⟩) ++ ['\n'])

theorem readable_index_pair :
    let scan (log : Source) := Scan.run .default [] log .unlimited
    let index (paths : SortedSet Text) := (write paths .unlimited).1.written
    ∃ s s' : ScanSummary,
      (scan (logNaming [['b'], ['a']])).result = .ok s ∧
      (scan (logNaming [['a', 'b']])).result = .ok s' ∧
      (∀ p ∈ s.storePaths, '\n' ∉ p) ∧ (∀ p ∈ s'.storePaths, '\n' ∉ p) ∧
      (index s.storePaths).splitOn lineFeed = [[0x61], [0x62], []] ∧
      index s'.storePaths ≠ index s.storePaths := by
  have htwo : (Scan.run .default [] (logNaming [['b'], ['a']]) .unlimited).result.toOption.map
      (·.storePaths.toList) = some [['a'], ['b']] := by decide +kernel
  have hone : (Scan.run .default [] (logNaming [['a', 'b']]) .unlimited).result.toOption.map
      (·.storePaths.toList) = some [['a', 'b']] := by decide +kernel
  intro scan index
  obtain ⟨s, hs, hps⟩ := exists_ok_of_toOption_map htwo
  obtain ⟨s', hs', hps'⟩ := exists_ok_of_toOption_map hone
  have hpaths (p : Text) (hp : p ∈ s.storePaths) : '\n' ∉ p := by
    have hmem : p ∈ [['a'], ['b']] := hps ▸ hp
    have hall : ∀ q ∈ [['a'], ['b']], '\n' ∉ q := by decide
    exact hall p hmem
  have hpaths' (p : Text) (hp : p ∈ s'.storePaths) : '\n' ∉ p := by
    obtain rfl : p = ['a', 'b'] := List.mem_singleton.1 (hps' ▸ hp)
    decide
  obtain ⟨hread, -, hinjective⟩ := readable_index_iff s.storePaths
  refine ⟨s, s', hs, hs', hpaths, hpaths', (hread.2 hpaths).trans ?_, fun heq => ?_⟩
  · rw [hps]
    decide +kernel
  · rw [hinjective s'.storePaths hpaths hpaths' heq, hps] at hps'
    exact absurd hps' (by decide)

/-- A path with a line feed is written as two lines, so that two logs with different store
paths have one index. -/
theorem exists_unreadable_index :
    let scan (log : Source) := Scan.run .default [] log .unlimited
    let index (paths : SortedSet Text) := (write paths .unlimited).1.written
    ∃ s s' : ScanSummary,
      (scan (logNaming ["a\nb".toList])).result = .ok s ∧
      (scan (logNaming ["a".toList, "b".toList])).result = .ok s' ∧
      s.storePaths ≠ s'.storePaths ∧ index s.storePaths = index s'.storePaths ∧
      (index s.storePaths).splitOn lineFeed ≠ s.storePaths.toList.map Utf8.encode ++ [[]] := by
  have hone : (Scan.run .default [] (logNaming ["a\nb".toList]) .unlimited).result.toOption.map
      (·.storePaths.toList) = some ["a\nb".toList] := by decide +kernel
  have htwo : (Scan.run .default [] (logNaming ["a".toList, "b".toList])
      .unlimited).result.toOption.map (·.storePaths.toList) = some ["a".toList, "b".toList] := by
    decide +kernel
  intro scan index
  obtain ⟨s, hs, hps⟩ := exists_ok_of_toOption_map hone
  obtain ⟨s', hs', hps'⟩ := exists_ok_of_toOption_map htwo
  refine ⟨s, s', hs, hs', fun h => ?_, ?_, ?_⟩
  · rw [h, hps'] at hps
    exact absurd hps (by decide)
  · simp only [index, written_write_unlimited, render, hps, hps']
    decide +kernel
  · simp only [index, written_write_unlimited, render, hps]
    decide +kernel

end StoreIndex

end StoreLog
