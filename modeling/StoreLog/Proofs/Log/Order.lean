-- SUMMARY: Logs whose outputs keep apart can be processed in any order.
import StoreLog.Proofs.Log.Footprint
import StoreLog.Proofs.Log.Sharing
import StoreLog.Proofs.Log.StaleIndex

/-!
# The order of logs

Logs whose outputs keep away from one another can be processed in any order. Each comes to
what it comes to by itself on the first tree, for its footprint is as it was when its turn
comes, and nothing is written later where its outputs are.
-/

namespace StoreLog

namespace Log

open StoreLog.Tree Outputs

variable {settings : ScanSettings} {t u v : Tree} {log other : Path} {logs others : List Path}
  {s : ScanSummary} {e : Failure} {m : Loc}

/-! ## Logs apart -/

/-- No output of a log is another log or an output of that, or leads to one. -/
def Spares (log other : Path) : Prop :=
  ∀ out ∈ Outputs.paths log, ∀ p ∈ other :: Outputs.paths other, ¬out.components <+: p.components

def AreApart (log other : Path) : Prop :=
  Spares log other ∧ Spares other log

theorem AreApart.symm (h : AreApart log other) : AreApart other log :=
  ⟨h.2, h.1⟩

instance (log other : Path) : Decidable (Spares log other) :=
  inferInstanceAs (Decidable (∀ out ∈ Outputs.paths log, ∀ p ∈ other :: Outputs.paths other, _))

instance (log other : Path) : Decidable (AreApart log other) :=
  inferInstanceAs (Decidable (Spares log other ∧ Spares other log))

theorem prefix_of_locOf_suffix {p q : Path} (h : t.locOf q <:+ t.locOf p) :
    q.components <+: p.components := by
  obtain ⟨r, hr⟩ := h
  rw [locOf, locOf, ← List.append_assoc] at hr
  refine ⟨r.reverse, ?_⟩
  rw [← List.reverse_inj, List.reverse_append, List.reverse_reverse]
  exact List.append_cancel_right hr

/-- An output is not in the footprint of a log that is spared. -/
theorem Spares.ne_of_footprint (h : Spares log other) {out : Path} (hout : out ∈ Outputs.paths log)
    (hm : footprint t other m) : m ≠ t.locOf out := by
  rintro rfl
  obtain ⟨p, hp, hsuffix⟩ := hm
  exact h out hout p hp (prefix_of_locOf_suffix hsuffix)

theorem footprint_output {out : Path} (hout : out ∈ Outputs.paths log) :
    footprint t log (t.locOf out) :=
  ⟨out, List.mem_cons_of_mem log hout, List.suffix_refl _⟩

/-! ## Reports and trees -/

/-- A report has a log with what came of it. -/
def Report.Lists (report : Report) (log : Path) : Except Failure ScanSummary → Prop
  | .ok s => (log, s) ∈ report.processed
  | .error e => (log, e) ∈ report.failed

/-- What is reported if every log is processed on the same tree. -/
def reportOn (settings : ScanSettings) (t : Tree) (logs : List Path) : Report where
  processed := logs.filterMap fun log =>
    match (process settings t log).result with
    | .ok s => some (log, s)
    | .error _ => none
  failed := logs.filterMap fun log =>
    match (process settings t log).result with
    | .ok _ => none
    | .error e => some (log, e)

theorem reportOn_cons_ok (logs : List Path) (h : (process settings t log).result = .ok s) :
    reportOn settings t (log :: logs) = (reportOn settings t logs).addProcessed log s := by
  simp only [reportOn, List.filterMap_cons, h, Report.addProcessed]

theorem reportOn_cons_error (logs : List Path) (h : (process settings t log).result = .error e) :
    reportOn settings t (log :: logs) = (reportOn settings t logs).addFailed log e := by
  simp only [reportOn, List.filterMap_cons, h, Report.addFailed]

theorem lists_reportOn_iff (hlog : log ∈ logs) (r : Except Failure ScanSummary) :
    (reportOn settings t logs).Lists log r ↔ (process settings t log).result = r := by
  cases r with
  | ok s =>
    simp only [Report.Lists, reportOn, List.mem_filterMap]
    constructor
    · rintro ⟨other, -, h⟩
      split at h
      · next hs =>
        cases h
        exact hs
      · cases h
    · exact fun h => ⟨log, hlog, by rw [h]⟩
  | error e =>
    simp only [Report.Lists, reportOn, List.mem_filterMap]
    constructor
    · rintro ⟨other, -, h⟩
      split at h
      · cases h
      · next he =>
        cases h
        exact he
    · exact fun h => ⟨log, hlog, by rw [h]⟩

/-- A tree with the outputs that the logs have on another tree, each for itself, and with all
else as in a third one. -/
structure Merges (settings : ScanSettings) (t : Tree) (logs : List Path) (u v : Tree) : Prop where
  workDir : v.workDir = u.workDir
  output : ∀ log ∈ logs, ∀ out ∈ Outputs.paths log,
    v.entryAt (t.locOf out) = (process settings t log).tree.entryAt (t.locOf out)
  rest : ∀ m, (∀ log ∈ logs, ∀ out ∈ Outputs.paths log, m ≠ t.locOf out) →
    v.entryAt m = u.entryAt m

/-- The order of the logs has no say in what they merge to. -/
theorem Merges.eq_of_perm {v' : Tree} (h : Merges settings t logs u v)
    (h' : Merges settings t others u v') (hperm : others.Perm logs) : v' = v := by
  refine Tree.ext (h'.workDir.trans h.workDir.symm) fun m => ?_
  by_cases hm : ∃ log ∈ logs, ∃ out ∈ Outputs.paths log, m = t.locOf out
  · obtain ⟨log, hlog, out, hout, rfl⟩ := hm
    rw [h.output log hlog out hout, h'.output log (hperm.mem_iff.2 hlog) out hout]
  · have hnot (log : Path) (hlog : log ∈ logs) (out : Path) (hout : out ∈ Outputs.paths log) :
        m ≠ t.locOf out := fun heq => hm ⟨log, hlog, out, hout, heq⟩
    rw [h.rest m hnot, h'.rest m fun log hlog => hnot log (hperm.mem_iff.1 hlog)]

/-! ## Several logs -/

/-- Where a log is processed first, the footprint of one that is spared stays as it is. -/
theorem alike_process_of_spares (settings : ScanSettings) (hu : u.IsLinkFree)
    (hlog : log.IsNormal) (h : Spares log other) (halike : Alike (footprint t other) t u) :
    Alike (footprint t other) t (process settings u log).tree where
  workDir := (sameDirs_process settings u log).workDir.symm.trans halike.workDir
  entryAt_eq m hm := by
    have hne {out : Path} (hout : out ∈ Outputs.paths log) : m ≠ u.locOf out := by
      rw [locOf_congr halike.workDir]
      exact h.ne_of_footprint hout hm
    rw [entryAt_process settings hu hlog (hne (by simp [Outputs.paths]))
      (hne (by simp [Outputs.paths])), halike.entryAt_eq m hm]

/-- Logs apart, each of which finds its footprint as on another tree, come to what they come to
there. -/
theorem processAll_of_areApart (ht : t.IsLinkFree) (hnormal : ∀ log ∈ logs, log.IsNormal)
    (hapart : logs.Pairwise AreApart) (hu : u.IsLinkFree)
    (halike : ∀ log ∈ logs, Alike (footprint t log) t u) :
    (processAll settings .keepGoing u logs).result = .ok (reportOn settings t logs) ∧
      Merges settings t logs u (processAll settings .keepGoing u logs).tree := by
  -- For every tree that looks as `t` does where it matters, as each log changes it elsewhere.
  induction logs generalizing u with
  | nil => exact ⟨rfl, rfl, nofun, fun _ _ => rfl⟩
  | cons log logs ih =>
    rw [List.forall_mem_cons] at hnormal halike
    obtain ⟨hlog, hlogs⟩ := hnormal
    obtain ⟨hapart, hrest⟩ := List.pairwise_cons.1 hapart
    have hdir : u.workDir = t.workDir := halike.1.workDir
    have hfirst := process_of_alike settings ht hlog halike.1
    obtain ⟨hresult, hmerges⟩ := ih hlogs hrest (isLinkFree_process settings log hu)
      fun other hother =>
        alike_process_of_spares settings hu hlog (hapart other hother).1 (halike.2 other hother)
    have htree : (processAll settings .keepGoing u (log :: logs)).tree =
        (processAll settings .keepGoing (process settings u log).tree logs).tree := by
      cases hr : (process settings u log).result with
      | ok s => rw [processAll_cons_ok _ _ hr, Work.tree_after, Work.tree_map]
      | error e => rw [processAll_keepGoing_cons_error _ hr, Work.tree_after, Work.tree_map]
    refine ⟨?_, ?_⟩
    · cases hr : (process settings u log).result with
      | ok s =>
        rw [processAll_cons_ok _ _ hr, reportOn_cons_ok _ (hfirst.result ▸ hr), Work.result_after,
          Work.result_map, hresult]
        rfl
      | error e =>
        rw [processAll_keepGoing_cons_error _ hr, reportOn_cons_error _ (hfirst.result ▸ hr),
          Work.result_after, Work.result_map, hresult]
        rfl
    · rw [htree]
      have hworkDir := (sameDirs_process settings u log).workDir.symm
      refine ⟨hmerges.workDir.trans hworkDir, ?_, fun m hm => ?_⟩
      · rw [List.forall_mem_cons]
        refine ⟨fun out hout => ?_, hmerges.output⟩
        -- No later log writes to an output of the first one.
        rw [hmerges.rest _ fun other hother out' hout' =>
          (hapart other hother).2.ne_of_footprint hout' (footprint_output hout)]
        exact hfirst.tree.entryAt_eq _ (footprint_output hout)
      · rw [List.forall_mem_cons] at hm
        have hmu {out : Path} (hout : out ∈ Outputs.paths log) : m ≠ u.locOf out := by
          rw [locOf_congr hdir]
          exact hm.1 out hout
        rw [hmerges.rest m hm.2, entryAt_process settings hu hlog (hmu (by simp [Outputs.paths]))
          (hmu (by simp [Outputs.paths]))]

/-- Logs apart leave the same tree in any order, and each comes to what it comes to by itself on
the tree at first. -/
theorem processAll_perm (ht : t.IsLinkFree) (hnormal : ∀ log ∈ logs, log.IsNormal)
    (hapart : logs.Pairwise AreApart) (hperm : others.Perm logs) :
    let w := processAll settings .keepGoing t logs
    let w' := processAll settings .keepGoing t others
    w'.tree = w.tree ∧
      w.result = .ok (reportOn settings t logs) ∧ w'.result = .ok (reportOn settings t others) ∧
      ∀ log ∈ logs, ∀ r,
        ((reportOn settings t logs).Lists log r ↔ (process settings t log).result = r) ∧
        ((reportOn settings t others).Lists log r ↔ (process settings t log).result = r) := by
  intro w w'
  have hself (log : Path) : Alike (footprint t log) t t := ⟨rfl, fun _ _ => rfl⟩
  obtain ⟨hresult, hmerges⟩ := processAll_of_areApart ht hnormal hapart ht fun log _ => hself log
  obtain ⟨hresult', hmerges'⟩ := processAll_of_areApart ht
    (fun log hlog => hnormal log (hperm.mem_iff.1 hlog))
    ((hperm.pairwise_iff AreApart.symm).2 hapart) ht fun log _ => hself log
  refine ⟨hmerges.eq_of_perm hmerges' hperm, hresult, hresult', fun log hlog r => ?_⟩
  exact ⟨lists_reportOn_iff hlog r, lists_reportOn_iff (hperm.mem_iff.2 hlog) r⟩

def otherLog : Path := Path.ofText ['b', '.', 'l', 'o', 'g']

/-- A log that is accepted and another one that is not. -/
def pairTree : Tree :=
  acceptedTree.put (otherLog :: fresh.workDir)
    (.file (Utf8.encode "dev server ready\nPHRASEMATCH []\n".toList))

theorem isLinkFree_pairTree : pairTree.IsLinkFree :=
  (isLinkFree_sampleTree _).put _ rfl

theorem processAll_perm_pair :
    let w := processAll .default .keepGoing pairTree [sampleLog, otherLog]
    let w' := processAll .default .keepGoing pairTree [otherLog, sampleLog]
    w'.tree = w.tree ∧ w'.tree ≠ pairTree ∧
      ∃ report report' s e, w.result = .ok report ∧ w'.result = .ok report' ∧
        report.Lists sampleLog (.ok s) ∧ report'.Lists sampleLog (.ok s) ∧
        report.Lists otherLog (.error (.scan e)) ∧ report'.Lists otherLog (.error (.scan e)) := by
  have hone : (process .default pairTree sampleLog).result.toOption.map (·.matchesWritten) =
      some 1 := by decide +kernel
  have herror : isScanError (process .default pairTree otherLog).result = true := by
    decide +kernel
  obtain ⟨s, hs, -⟩ := exists_ok_of_toOption_map hone
  obtain ⟨e, he⟩ := isScanError_iff.1 herror
  intro w w'
  have hchanged : w'.tree.lookAt (Outputs.ofLog otherLog).ljson ≠
      pairTree.lookAt (Outputs.ofLog otherLog).ljson := by decide +kernel
  have hperm : [otherLog, sampleLog].Perm [sampleLog, otherLog] := .swap sampleLog otherLog []
  obtain ⟨htree, hresult, hresult', hentry⟩ :=
    @processAll_perm .default _ _ _ isLinkFree_pairTree (by decide) (by decide) hperm
  refine ⟨htree, fun heq => hchanged (by rw [heq]), _, _, s, e, hresult, hresult', ?_⟩
  have hsample := hentry sampleLog (by simp) (.ok s)
  have hother := hentry otherLog (by simp) (.error (.scan e))
  exact ⟨hsample.1.2 hs, hsample.2.2 hs, hother.1.2 he, hother.2.2 he⟩

end Log

end StoreLog
