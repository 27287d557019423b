-- SUMMARY: The entries of a manifest as its trimmed lines.
import Mathlib.Data.List.Basic
import StoreLog.Manifest
import StoreLog.Proofs.Text.Split
import StoreLog.Proofs.Text.Trim

/-!
# The stores of a manifest

A manifest lists its lines, trimmed, without the blank ones. Blanks around the whole
text, line feeds among them, list nothing, so it makes no difference to what is listed
that a manifest is trimmed before it is cut into lines. It does make one to the numbers
of the lines: the line feeds that a manifest begins with are not counted.
-/

namespace StoreLog.Manifest

/-- The lines of a text, trimmed, without the blank ones. -/
def listed (s : Text) : List Text :=
  ((s.splitOn '\n').map Text.trim).filter (!·.isEmpty)

/-- The lines of a text, trimmed. -/
def trimmedLines (s : Text) : List Text :=
  (s.splitOn '\n').map Text.trim

variable {c : Char} {s : Text}

theorem trimmedLines_append_lineFeed (s r : Text) :
    trimmedLines (s ++ '\n' :: r) = trimmedLines s ++ trimmedLines r := by
  rw [trimmedLines, List.splitOn_append_cons_self, List.map_append, trimmedLines, trimmedLines]

theorem trimmedLines_of_not_mem (hs : '\n' ∉ s) : trimmedLines s = [Text.trim s] := by
  rw [trimmedLines, List.splitOn_eq_singleton hs, List.map_singleton]

/-- A character that ends no line stands at the front of the first one. -/
theorem exists_trimmedLines_cons (hc : c ≠ '\n') (s : Text) :
    ∃ p ls, trimmedLines s = Text.trim p :: ls ∧
      trimmedLines (c :: s) = Text.trim (c :: p) :: ls := by
  by_cases hs : '\n' ∈ s
  · obtain ⟨p, r, rfl, hp⟩ := List.eq_append_cons_of_mem hs
    have hp' : '\n' ∉ c :: p := by simp [hp, Ne.symm hc]
    refine ⟨p, trimmedLines r, ?_, ?_⟩
    · rw [trimmedLines_append_lineFeed, trimmedLines_of_not_mem hp, List.singleton_append]
    · rw [← List.cons_append, trimmedLines_append_lineFeed, trimmedLines_of_not_mem hp',
        List.singleton_append]
  · have hs' : '\n' ∉ c :: s := by simp [hs, Ne.symm hc]
    exact ⟨s, [], trimmedLines_of_not_mem hs, trimmedLines_of_not_mem hs'⟩

/-! ## Blanks around a text -/

theorem count_lineFeed_singleton (hc : c ≠ '\n') : [c].count '\n' = 0 :=
  List.count_eq_zero_of_not_mem (by simpa using Ne.symm hc)

/-- A blank at the front is a blank line if it is a line feed, and is trimmed off if not. -/
theorem trimmedLines_cons_of_isBlank (hc : Text.isBlank c = true) (s : Text) :
    trimmedLines (c :: s) = List.replicate ([c].count '\n') [] ++ trimmedLines s := by
  by_cases hn : c = '\n'
  · subst hn
    exact trimmedLines_append_lineFeed [] s
  · obtain ⟨p, ls, hs, hcs⟩ := exists_trimmedLines_cons hn s
    rw [hcs, hs, Text.trim_cons_of_isBlank hc, count_lineFeed_singleton hn]
    rfl

theorem trimmedLines_concat_of_isBlank (hc : Text.isBlank c = true) (s : Text) :
    trimmedLines (s ++ [c]) = trimmedLines s ++ List.replicate ([c].count '\n') [] := by
  by_cases hn : c = '\n'
  · subst hn
    exact trimmedLines_append_lineFeed s []
  · -- A blank that ends no line is trimmed off the last line.
    rw [count_lineFeed_singleton hn, List.replicate_zero, List.append_nil]
    induction s using split_induction (a := '\n') with
    | last p hp =>
      have hp' : '\n' ∉ p ++ [c] := by simp [hp, Ne.symm hn]
      rw [trimmedLines_of_not_mem hp', trimmedLines_of_not_mem hp, Text.trim_concat_of_isBlank hc]
    | piece p r _ ih =>
      rw [List.append_assoc, List.cons_append, trimmedLines_append_lineFeed,
        trimmedLines_append_lineFeed, ih]

theorem trimmedLines_blanks_append {a : Text} (ha : ∀ c ∈ a, Text.isBlank c = true) (s : Text) :
    trimmedLines (a ++ s) = List.replicate (a.count '\n') [] ++ trimmedLines s := by
  induction a with
  | nil => rfl
  | cons c a ih =>
    obtain ⟨hc, ha⟩ := List.forall_mem_cons.1 ha
    have hcount : (c :: a).count '\n' = [c].count '\n' + a.count '\n' := by
      rw [← List.count_append, List.singleton_append]
    rw [List.cons_append, trimmedLines_cons_of_isBlank hc, ih ha, hcount, List.replicate_add,
      List.append_assoc]

theorem trimmedLines_append_blanks {b : Text} (hb : ∀ c ∈ b, Text.isBlank c = true) (s : Text) :
    trimmedLines (s ++ b) = trimmedLines s ++ List.replicate (b.count '\n') [] := by
  induction b generalizing s with
  | nil => simp
  | cons c b ih =>
    obtain ⟨hc, hb⟩ := List.forall_mem_cons.1 hb
    have hcount : (c :: b).count '\n' = [c].count '\n' + b.count '\n' := by
      rw [← List.count_append, List.singleton_append]
    rw [List.append_cons, ih hb, trimmedLines_concat_of_isBlank hc, hcount, List.replicate_add,
      List.append_assoc]

/-- Trimming a text takes blank lines off, those before and those after the other lines. -/
theorem exists_trimmedLines_eq (s : Text) :
    ∃ k, trimmedLines s = List.replicate ((s.takeWhile Text.isBlank).count '\n') [] ++
      trimmedLines (Text.trim s) ++ List.replicate k [] := by
  obtain ⟨b, hb, hs⟩ := Text.exists_takeWhile_append_trim_append s
  refine ⟨b.count '\n', ?_⟩
  conv => lhs; rw [hs]
  rw [trimmedLines_append_blanks hb]
  rw [trimmedLines_blanks_append fun c hc => List.mem_takeWhile_imp hc]

theorem listed_trim (s : Text) : listed (Text.trim s) = listed s := by
  obtain ⟨k, hk⟩ := exists_trimmedLines_eq s
  have hs : listed s = (trimmedLines s).filter (!·.isEmpty) := rfl
  have hblank (n : Nat) : (List.replicate n ([] : Text)).filter (!·.isEmpty) = [] :=
    List.filter_replicate_of_neg (by decide)
  rw [hs, hk, List.filter_append, List.filter_append, hblank, hblank, List.nil_append,
    List.append_nil]
  rfl

/-! ## Sources -/

/-- What can be listed in a manifest. -/
structure IsSource (p : Text) : Prop where
  ne_nil : p ≠ []
  lineFeed_not_mem : '\n' ∉ p
  head_not_blank : ∀ c ∈ p.head?, Text.isBlank c = false
  last_not_blank : ∀ c ∈ p.getLast?, Text.isBlank c = false

variable {p : Text}

theorem IsSource.trim_eq_self (h : IsSource p) : Text.trim p = p :=
  Text.trim_eq_self_iff.2 ⟨h.head_not_blank, h.last_not_blank⟩

theorem isSource_of_mem_listed (h : p ∈ listed s) : IsSource p := by
  rw [listed, List.mem_filter, List.mem_map] at h
  obtain ⟨⟨l, hl, rfl⟩, hne⟩ := h
  obtain ⟨hhead, hlast⟩ := Text.trim_eq_self_iff.1 (Text.trim_trim l)
  exact {
    ne_nil := by simpa using hne
    lineFeed_not_mem := fun hp => not_mem_of_mem_splitOn hl ((Text.trim_infix l).subset hp)
    head_not_blank := hhead
    last_not_blank := hlast }

/-! ## Entries -/

/-- The entries are the lines that are not blank, with their numbers. -/
theorem map_entriesFrom (n k : Nat) (ls : List Text) :
    (entriesFrom n ls).map (fun e => (e.source, e.line + k)) =
      ((ls.map Text.trim).zipIdx (n + k)).filter (!·.1.isEmpty) := by
  induction ls generalizing n with
  | nil => rfl
  | cons l ls ih =>
    have ih := ih (n + 1)
    rw [Nat.add_right_comm] at ih
    simp only [List.map_cons, List.zipIdx_cons, entriesFrom]
    split
    · next h => rw [ih, List.filter_cons_of_neg (by simpa using h)]
    · next h => rw [List.map_cons, ih, List.filter_cons_of_pos (by simpa using h)]

theorem map_source_entriesFrom (n : Nat) (ls : List Text) :
    (entriesFrom n ls).map (·.source) = (ls.map Text.trim).filter (!·.isEmpty) :=
  calc (entriesFrom n ls).map (·.source)
    _ = ((entriesFrom n ls).map fun e => (e.source, e.line + 0)).map Prod.fst := by
      rw [List.map_map]
      rfl
    _ = (((ls.map Text.trim).zipIdx n).filter (!·.1.isEmpty)).map Prod.fst := by
      rw [map_entriesFrom, Nat.add_zero]
    _ = (((ls.map Text.trim).zipIdx n).map Prod.fst).filter (!·.isEmpty) := by
      rw [List.filter_map]
      rfl
    _ = (ls.map Text.trim).filter (!·.isEmpty) := by rw [List.zipIdx_map_fst]

/-- The stores that are read from a manifest are the ones it lists. -/
theorem map_source_parse (s : Text) : (parse s).map (·.source) = listed s := by
  rw [parse, map_source_entriesFrom, ← listed_trim]
  rfl

/-- The numbers of entries increase, for they are numbers of lines. -/
theorem pairwise_line_entriesFrom (n : Nat) (ls : List Text) :
    (entriesFrom n ls).Pairwise (·.line < ·.line) := by
  have hlines : ((ls.map Text.trim).zipIdx n).Pairwise (·.2 < ·.2) := by
    rw [← List.pairwise_map, List.zipIdx_map_snd]
    exact List.pairwise_lt_range'
  have hentries := hlines.sublist (List.filter_sublist (p := (!·.1.isEmpty)))
  rw [← Nat.add_zero n, ← map_entriesFrom, List.pairwise_map] at hentries
  exact hentries

/-! ## Numbers of lines -/

/-- A trimmed text begins with its first entry, so that has the number one. -/
theorem line_of_head?_parse {e : Entry} (h : e ∈ (parse s).head?) : e.line = 1 := by
  -- The first line of a trimmed text is blank only if the whole text is empty.
  obtain ⟨es, hes⟩ : ∃ es, parse s = e :: es := List.head?_eq_some_iff.1 h
  have hmap := map_entriesFrom 1 0 ((Text.trim s).splitOn '\n')
  rw [← parse, hes] at hmap
  cases ht : Text.trim s with
  | nil =>
    rw [parse, ht] at hes
    cases hes
  | cons c r =>
    have hc : Text.isBlank c = false :=
      (Text.trim_eq_self_iff.1 (Text.trim_trim s)).1 c (by rw [ht]; rfl)
    have hn : c ≠ '\n' := by
      rintro rfl
      exact absurd hc (by decide)
    obtain ⟨p, ls, -, hls⟩ := exists_trimmedLines_cons hn r
    have hne : Text.trim (c :: p) ≠ [] := by
      intro hnil
      have hblank := Text.trim_eq_nil_iff.1 hnil c List.mem_cons_self
      exact absurd (hc.symm.trans hblank) Bool.false_ne_true
    rw [ht, ← trimmedLines, hls, List.zipIdx_cons,
      List.filter_cons_of_pos (by simpa using hne)] at hmap
    exact congrArg Prod.snd (List.cons.inj hmap).1

/-- The line feeds in front of a manifest do not count for the numbers of its lines. -/
theorem map_parse (s : Text) :
    (parse s).map (fun e => (e.source, e.line + (s.takeWhile Text.isBlank).count '\n')) =
      ((trimmedLines s).zipIdx 1).filter (!·.1.isEmpty) := by
  have hblank (n k : Nat) :
      ((List.replicate k ([] : Text)).zipIdx n).filter (!·.1.isEmpty) = [] := by
    refine List.filter_eq_nil_iff.2 fun p hp => ?_
    have hnil : p.1 = [] := List.eq_of_mem_replicate (List.fst_mem_of_mem_zipIdx hp)
    simp [hnil]
  obtain ⟨k, hk⟩ := exists_trimmedLines_eq s
  rw [parse, map_entriesFrom, hk, List.zipIdx_append, List.zipIdx_append, List.filter_append,
    List.filter_append, hblank, hblank, List.length_replicate, List.nil_append, List.append_nil]
  rfl

/-- The entries of a manifest are its lines, trimmed, without the blank ones, in order. Each of
them has the number of its line, less the line feeds among the blanks that the manifest begins
with; so the numbers increase, and the first one is one. -/
theorem parse_numbers_lines (content : Text) :
    let entries := parse content
    let lines := (content.splitOn '\n').map Text.trim
    let skipped := (content.takeWhile Text.isBlank).count '\n'
    entries.map (·.source) = lines.filter (!·.isEmpty) ∧
      (∀ e ∈ entries, e.source ≠ [] ∧ Text.trim e.source = e.source ∧ '\n' ∉ e.source) ∧
      entries.map (fun e => (e.source, e.line + skipped)) =
        (lines.zipIdx 1).filter (!·.1.isEmpty) ∧
      entries.Pairwise (·.line < ·.line) ∧ ∀ e ∈ entries.head?, e.line = 1 := by
  intro entries lines skipped
  refine ⟨map_source_parse content, fun e he => ?_, map_parse content,
    pairwise_line_entriesFrom 1 _, fun e he => line_of_head?_parse he⟩
  have hmem : e.source ∈ listed content := map_source_parse content ▸ List.mem_map_of_mem he
  have hsource := isSource_of_mem_listed hmem
  exact ⟨hsource.ne_nil, hsource.trim_eq_self, hsource.lineFeed_not_mem⟩

end StoreLog.Manifest
