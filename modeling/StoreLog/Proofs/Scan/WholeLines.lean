-- SUMMARY: The longest front of a source that consists of whole lines.
import Mathlib.Data.List.DropRight
import StoreLog.Proofs.Scan.Lines

/-!
# Whole lines

Bytes in which every line has its line feed. More bytes after them are cut into lines of
their own, and the line feeds count the lines. A source whose reading fails has the whole
lines at the front of what is read, and then the failure.
-/

namespace StoreLog.Source

/-- Nothing, or bytes that end with a line feed. -/
def IsWhole (b : Bytes) : Prop :=
  b = [] ∨ b.getLast? = some lineFeed

instance : DecidablePred IsWhole :=
  fun b => inferInstanceAs (Decidable (b = [] ∨ b.getLast? = some lineFeed))

/-- The bytes up to the last line feed. -/
def wholeLines (b : Bytes) : Bytes :=
  b.rdropWhile (· != lineFeed)

theorem isWhole_nil : IsWhole [] :=
  .inl rfl

theorem eq_nil_of_isWhole {p : Bytes} (hp : lineFeed ∉ p) (h : IsWhole p) : p = [] := by
  rcases h with h | h
  · exact h
  · exact absurd (List.mem_of_getLast? h) hp

theorem isWhole_append_lineFeed_iff {p r : Bytes} :
    IsWhole (p ++ lineFeed :: r) ↔ IsWhole r := by
  cases r with
  | nil => simp [IsWhole]
  | cons b r => simp [IsWhole, List.getLast?_append]

/-! ## Cutting -/

theorem chunks_append {a : Bytes} (h : IsWhole a) (b : Bytes) :
    chunks (a ++ b) = chunks a ++ chunks b := by
  induction a using split_induction (a := lineFeed) with
  | last p hp =>
    obtain rfl := eq_nil_of_isWhole hp h
    rfl
  | piece p r hp ih =>
    have hr := isWhole_append_lineFeed_iff.1 h
    rw [List.append_assoc, List.cons_append, chunks_append_lineFeed hp, chunks_append_lineFeed hp,
      ih hr, List.cons_append]

theorem length_chunks {a : Bytes} (h : IsWhole a) : (chunks a).length = a.count lineFeed := by
  induction a using split_induction (a := lineFeed) with
  | last p hp =>
    obtain rfl := eq_nil_of_isWhole hp h
    rfl
  | piece p r hp ih =>
    have hr := isWhole_append_lineFeed_iff.1 h
    rw [chunks_append_lineFeed hp, List.length_cons, ih hr, List.count_append, List.count_cons_self,
      List.count_eq_zero_of_not_mem hp, Nat.zero_add]

/-- Lines after whole lines are lines of their own. -/
theorem lines_append {a : Bytes} (h : IsWhole a) (b : Bytes) :
    lines { content := a ++ b } = lines { content := a } ++ lines { content := b } := by
  simp only [lines, chunks_append h, List.map_append]

theorem length_lines {a : Bytes} (h : IsWhole a) :
    (lines { content := a }).length = a.count lineFeed := by
  simp only [lines, List.length_map, length_chunks h]

/-- A text that is written as one line is read as that line. -/
theorem line_encode {s : Text} (hr : s.getLast? ≠ some '\r') :
    line (Utf8.encode s ++ [lineFeed]) = .ok s := by
  have hfeed : Utf8.encode s ++ [lineFeed] = Utf8.encode (s ++ ['\n']) := by
    rw [Utf8.encode_append]
    rfl
  have hreturn : ['\r'].isSuffixOf? s = none := by
    rw [Option.eq_none_iff_forall_ne_some]
    intro t ht
    rw [List.isSuffixOf?_eq_some_iff_append_eq] at ht
    exact hr (by simp [← ht])
  have hending : ['\n'].isSuffixOf? (s ++ ['\n']) = some s := by simp
  rw [line, hfeed, Utf8.decode_encode]
  simp only [dropEnding, hending, hreturn, Option.getD_none]

theorem lines_encode_append {s : Text} (hs : '\n' ∉ s) (hr : s.getLast? ≠ some '\r') (b : Bytes) :
    lines { content := Utf8.encode s ++ lineFeed :: b } = .ok s :: lines { content := b } := by
  have hfeed : lineFeed ∉ Utf8.encode s := mt Utf8.lineFeed_mem_encode.1 hs
  simp only [lines, chunks_append_lineFeed hfeed, List.map_cons, line_encode hr]

/-- Texts that are written as lines are read as these lines. -/
theorem lines_flatMap_encode {texts : List Text} (hfeed : ∀ s ∈ texts, '\n' ∉ s)
    (hreturn : ∀ s ∈ texts, s.getLast? ≠ some '\r') :
    lines { content := texts.flatMap fun s => Utf8.encode s ++ [lineFeed] } = texts.map .ok := by
  induction texts with
  | nil => rfl
  | cons s texts ih =>
    rw [List.forall_mem_cons] at hfeed hreturn
    rw [List.flatMap_cons, List.append_assoc, List.singleton_append,
      lines_encode_append hfeed.1 hreturn.1, ih hfeed.2 hreturn.2, List.map_cons]

/-! ## Up to the last line feed -/

theorem wholeLines_of_not_mem {p : Bytes} (hp : lineFeed ∉ p) : wholeLines p = [] := by
  rw [wholeLines, List.rdropWhile_eq_nil_iff]
  intro b hb
  simpa using ne_of_mem_of_not_mem hb hp

theorem wholeLines_append_lineFeed (p r : Bytes) :
    wholeLines (p ++ lineFeed :: r) = p ++ lineFeed :: wholeLines r := by
  have hrev : (p ++ lineFeed :: r).reverse = r.reverse ++ (lineFeed :: p.reverse) := by simp
  rw [wholeLines, wholeLines, List.rdropWhile, List.rdropWhile, hrev, List.dropWhile_append]
  split
  · next h => simp [List.isEmpty_iff.1 h]
  · simp

theorem wholeLines_isPrefix (b : Bytes) : wholeLines b <+: b :=
  List.rdropWhile_prefix _ _

theorem isWhole_wholeLines (b : Bytes) : IsWhole (wholeLines b) := by
  induction b using split_induction (a := lineFeed) with
  | last p hp =>
    rw [wholeLines_of_not_mem hp]
    exact isWhole_nil
  | piece p r hp ih =>
    rw [wholeLines_append_lineFeed]
    exact isWhole_append_lineFeed_iff.2 ih

/-- No longer whole lines stand at the front. -/
theorem prefix_wholeLines {b q : Bytes} (hq : q <+: b) (h : IsWhole q) : q <+: wholeLines b := by
  rcases h with rfl | h
  · exact List.nil_prefix
  · obtain ⟨p, hp⟩ := List.getLast?_eq_some_iff.1 h
    obtain ⟨r, rfl⟩ := hq
    subst hp
    rw [List.append_assoc, List.singleton_append, wholeLines_append_lineFeed]
    exact ⟨wholeLines r, by simp⟩

/-- The longest whole lines at the front of a content that lie within its first `r` bytes. -/
structure IsLongestWhole (content : Bytes) (r : Nat) (whole : Bytes) : Prop where
  front : whole <+: content
  within : whole.length ≤ r
  isWhole : IsWhole whole
  longest : ∀ q, q <+: content → q.length ≤ r → IsWhole q → q.length ≤ whole.length

theorem isLongestWhole_take (content : Bytes) (r : Nat) :
    IsLongestWhole content r (wholeLines (content.take r)) where
  front := (wholeLines_isPrefix _).trans (List.take_prefix r content)
  within := (wholeLines_isPrefix _).length_le.trans (List.length_take_le r content)
  isWhole := isWhole_wholeLines _
  longest := by
    intro q hq hr h
    have htake : q <+: content.take r := List.prefix_take_iff.2 ⟨hq, hr⟩
    exact (prefix_wholeLines htake h).length_le

theorem filter_isComplete_chunks (b : Bytes) :
    (chunks b).filter isComplete = chunks (wholeLines b) := by
  induction b using split_induction (a := lineFeed) with
  | last p hp =>
    rw [wholeLines_of_not_mem hp, chunks_of_not_mem hp, List.filter_filter]
    refine List.filter_eq_nil_iff.2 fun q hq => ?_
    obtain rfl := List.mem_singleton.1 hq
    simp only [isComplete, Bool.and_eq_true, beq_iff_eq, not_and]
    intro hlast
    exact absurd (List.mem_of_getLast? hlast) hp
  | piece p r hp ih =>
    rw [wholeLines_append_lineFeed, chunks_append_lineFeed hp, chunks_append_lineFeed hp,
      List.filter_cons_of_pos (by simp [isComplete]), ih]

/-- A source that fails has the whole lines of what can be read, and then the failure. -/
theorem lines_of_fault (b : Bytes) (e : IoError) :
    lines { content := b, fault := some e } =
      lines { content := wholeLines b } ++ [.error e] := by
  simp only [lines, filter_isComplete_chunks]

end StoreLog.Source
