-- SUMMARY: The names of the outputs of a log, by the name of the log.
import Mathlib.Data.List.Basic
import StoreLog.Outputs
import StoreLog.Proofs.Path.Normal

/-!
# Names of output files

The outputs of a log lie next to it, and their names are that of the log with other endings.
Neither of them has the name of the log, and the two have different names. There is one stem
that the endings are not simply put to: that of one dot, which becomes two.
-/

namespace StoreLog.Outputs

/-- The endings of the two outputs. -/
def IsEnding (e : Bytes) : Prop :=
  e = ljsonEnding ∨ e = idxEnding

variable {e : Bytes}

theorem isEnding_ljson : IsEnding ljsonEnding := .inl rfl

theorem isEnding_idx : IsEnding idxEnding := .inr rfl

theorem IsEnding.slash_not_mem (he : IsEnding e) : Path.slash ∉ e := by
  rcases he with rfl | rfl <;> decide

theorem IsEnding.ne_nil (he : IsEnding e) : e ≠ [] := by
  rcases he with rfl | rfl <;> decide

theorem IsEnding.isFileName_append (he : IsEnding e) (n : Bytes) :
    Path.isFileName (n ++ e) = true := by
  have hlen : 3 ≤ e.length := by rcases he with rfl | rfl <;> decide
  have h (m : Bytes) (hm : m.length < 3) : n ++ e ≠ m := by
    rintro rfl
    simp at hm
    omega
  simp only [Path.isFileName, List.isEmpty_iff, Bool.and_eq_true, Bool.not_eq_true',
    bne_iff_ne, ne_eq, Bool.eq_false_iff]
  exact ⟨⟨h [] (by decide), h _ (by decide)⟩, h _ (by decide)⟩

/-- No output has the extension of a log. -/
theorem IsEnding.not_suffix (he : IsEnding e) (n : Bytes) : ¬logExtension <:+ n ++ e := by
  intro h
  have hlast : (n ++ e).getLast? = some 0x67 := by
    obtain ⟨m, hm⟩ := h
    rw [← hm, List.getLast?_append_of_ne_nil]
    all_goals decide
  rw [List.getLast?_append_of_ne_nil _ he.ne_nil] at hlast
  rcases he with rfl | rfl <;> revert hlast <;> decide

theorem append_ljson_ne_append_idx (n m : Bytes) : n ++ ljsonEnding ≠ m ++ idxEnding := by
  intro h
  have hlast := congrArg List.getLast? h
  rw [List.getLast?_append_of_ne_nil _ isEnding_ljson.ne_nil,
    List.getLast?_append_of_ne_nil _ isEnding_idx.ne_nil] at hlast
  exact absurd hlast (by decide)

theorem ljson_append_ne_idx (n : Bytes) : n ++ ljsonEnding ≠ n ++ idxEnding := by
  exact append_ljson_ne_append_idx n n

/-! ## Stems -/

/-- The ending that the name of a log loses. -/
def logEnding : Bytes :=
  Path.dot :: logExtension

theorem extension?_eq_log_iff {log : Path} (h : Path.isFileName (Path.leaf log) = true) :
    log.extension? = some logExtension ↔ ∃ n, n ≠ [] ∧ Path.leaf log = n ++ logEnding := by
  have hdot : Path.dot ∉ logExtension := by decide
  rw [Path.extension?_eq_some_iff h]
  constructor
  · rintro ⟨n, hn, hcut, -⟩
    exact ⟨n, hn, hcut⟩
  · rintro ⟨n, hn, hcut⟩
    exact ⟨n, hn, hcut, hdot⟩

/-- The stem of a log ends at the stem of its name. A stem of one dot has another dot put to it. -/
theorem stem_append_logEnding {n : Bytes} {log : Path} (h : Path.isFileName (Path.leaf log) = true)
    (hn : n ≠ []) (hcut : Path.leaf log = n ++ logEnding) :
    stem log = Path.around log ++ if n = [Path.dot] then [Path.dot, Path.dot] else n := by
  rw [stem, if_pos ((extension?_eq_log_iff h).2 ⟨n, hn, hcut⟩)]
  exact Path.dropExtension_eq h hn hcut (by decide)

/-- The name of a log without that ending is kept. -/
theorem stem_eq_self {log : Path} (h : Path.isFileName (Path.leaf log) = true)
    (hkept : ∀ n, n ≠ [] → Path.leaf log ≠ n ++ logEnding) : stem log = log := by
  rw [stem, if_neg]
  intro hx
  obtain ⟨n, hn, hcut⟩ := (extension?_eq_log_iff h).1 hx
  exact hkept n hn hcut

/-- A stem differs from its log in the last name at most. -/
theorem exists_stem_eq {log : Path} (h : Path.isFileName (Path.leaf log) = true) :
    ∃ n, Path.slash ∉ n ∧ stem log = Path.around log ++ n := by
  by_cases hlog : ∃ n, n ≠ [] ∧ Path.leaf log = n ++ logEnding
  · obtain ⟨n, hn, hcut⟩ := hlog
    refine ⟨_, ?_, stem_append_logEnding h hn hcut⟩
    split
    · decide
    · exact fun hs => Path.slash_not_mem_leaf log (hcut ▸ List.mem_append_left _ hs)
  · refine ⟨Path.leaf log, Path.slash_not_mem_leaf log, ?_⟩
    rw [stem_eq_self h fun n hn hcut => hlog ⟨n, hn, hcut⟩, Path.around_append_leaf]

/-! ## Outputs and their log -/

theorem leaf_stem_append_ne (he : IsEnding e) {log : Path} (h : Path.leaf log ≠ [])
    (hdot : Path.leaf log ≠ [Path.dot]) : Path.leaf (stem log) ++ e ≠ Path.leaf log := by
  intro heq
  unfold stem at heq
  split at heq
  · next hx =>
    have := Path.extension?_suffix h hdot hx
    rw [← heq] at this
    exact he.not_suffix _ this
  · exact he.ne_nil (List.append_right_eq_self.1 heq)

theorem IsEnding.stem_append_ne (he : IsEnding e) {log : Path}
    (h : Path.isFileName (Path.leaf log) = true) : stem log ++ e ≠ log := by
  obtain ⟨hne, hdot, -⟩ := Path.isFileName_iff.1 h
  intro heq
  have hleaf := Path.leaf_append (p := stem log) he.slash_not_mem
  rw [heq] at hleaf
  exact leaf_stem_append_ne he hne hdot hleaf.symm

/-- The outputs of a log with a normal path have normal paths. -/
theorem IsEnding.isNormal (he : IsEnding e) {log : Path} (h : log.IsNormal) :
    (stem log ++ e).IsNormal := by
  by_cases hlog : log = []
  · subst hlog
    rcases he with rfl | rfl <;> decide
  · obtain ⟨n, hn, hstem⟩ := exists_stem_eq (h.isFileName_leaf hlog)
    have hslash : Path.slash ∉ n ++ e := by simp [hn, he.slash_not_mem]
    rw [hstem, List.append_assoc]
    exact h.around_append hslash (he.isFileName_append n)

/-! ## Where outputs lie -/

/-- The two outputs that are called by a path and their endings. -/
def named (p : Path) : Outputs where
  ljson := p ++ ljsonEnding
  idx := p ++ idxEnding

variable {d name : Bytes}

/-- The outputs of a log lie next to it. Their names are that of the log with the endings in the
place of its own, if that leaves more than a dot: a log whose name has one dot before its ending
has outputs with two dots before theirs. Any other name of a log is kept before the endings.
Neither output is the log, and they differ from one another. -/
theorem ofLog_eq_named (hd : Path.IsFront d) (hslash : Path.slash ∉ name)
    (hname : Path.isFileName name = true) :
    let log : Path := d ++ name
    let outputs := ofLog log
    (∀ n, n ≠ [] → name = n ++ logEnding →
        outputs = named (d ++ if n = [Path.dot] then [Path.dot, Path.dot] else n)) ∧
      ((∀ n, n ≠ [] → name ≠ n ++ logEnding) → outputs = named (d ++ name)) ∧
      outputs.ljson ≠ log ∧ outputs.idx ≠ log ∧ outputs.ljson ≠ outputs.idx := by
  intro log outputs
  have haround : Path.around log = d := hd.around_append hslash
  have hleaf : Path.leaf log = name := hd.leaf_append hslash
  have hfile : Path.isFileName (Path.leaf log) = true := hleaf.symm ▸ hname
  have houtputs : outputs = named (stem log) := rfl
  refine ⟨fun n hn hcut => ?_, fun hkept => ?_, isEnding_ljson.stem_append_ne hfile,
    isEnding_idx.stem_append_ne hfile, ljson_append_ne_idx _⟩
  · rw [houtputs, stem_append_logEnding hfile hn (hleaf.trans hcut), haround]
  · rw [houtputs, stem_eq_self hfile fun n hn hcut => hkept n hn (hleaf.symm.trans hcut)]

/-- Only the last one of two endings is taken off, whatever bytes come before. -/
theorem ofLog_eq_named_bytes :
    let d : Path := Path.ofText "run//".toList
    let n : Bytes := 0xFF :: logEnding
    Path.IsFront d ∧ Path.slash ∉ n ++ logEnding ∧ Path.isFileName (n ++ logEnding) = true ∧
      n ≠ [] ∧ ofLog (d ++ (n ++ logEnding)) = named (d ++ n) := by
  intro d n
  have hd : Path.IsFront d := .inr (by decide)
  have hslash : Path.slash ∉ n ++ logEnding := by decide
  have hname : Path.isFileName (n ++ logEnding) = true := by decide
  obtain ⟨hcut, -⟩ := ofLog_eq_named hd hslash hname
  exact ⟨hd, hslash, hname, by decide, hcut n (by decide) rfl⟩

/-- The outputs of a log whose stem is a dot are not called by that stem, but as those of the log
whose stem is two dots. -/
theorem exists_ofLog_ne_named :
    let log : Path := Path.ofText "..log".toList
    let n : Bytes := [Path.dot]
    log = n ++ logEnding ∧ n ≠ [] ∧ Path.slash ∉ log ∧ Path.isFileName log = true ∧
      ofLog log ≠ named n ∧
      ofLog log = ⟨Path.ofText "...ljson".toList, Path.ofText "...idx".toList⟩ ∧
      ofLog log = ofLog (Path.ofText "...log".toList) := by
  decide

end StoreLog.Outputs
