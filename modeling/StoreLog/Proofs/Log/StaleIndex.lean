-- SUMMARY: When there is an index after a scan has failed.
import StoreLog.Proofs.Log.Footprint
import StoreLog.Proofs.Log.Outputs

/-!
# The index of a log that is not accepted

When a scan fails, no index is written, but an index that is there already is not
taken away. It stays as it is, even if it is the work of an earlier run on another
content of the log.
-/

namespace StoreLog

namespace Log

open StoreLog.Tree Outputs

variable {settings : ScanSettings} {t : Tree} {log : Path} {e : ScanError}

theorem writeIndex_ne_scan (idx : Path) (paths : SortedSet Text) (t : Tree) :
    (writeIndex idx paths t).result ≠ .error (.scan e) := by
  unfold writeIndex
  split
  · simp
  · simp only
    cases (StoreIndex.write paths _).2 <;> simp [Except.mapError]

/-- When a scan fails, the payload file has been created and written, and that is all. -/
theorem exists_create_of_scan_error (h : (process settings t log).result = .error (.scan e)) :
    ∃ u l s, t.create (Outputs.ofLog log).ljson = .ok (u, l) ∧
      (process settings t log).tree = u.commit l s := by
  cases hopen : t.openRead log with
  | error err =>
    rw [process_of_openRead_error settings hopen] at h
    cases h
  | ok source =>
    rw [process_of_openRead settings hopen] at h ⊢
    obtain ⟨hscan, htree⟩ | ⟨summary, -, hindex⟩ := Work.andThen_eq_error h
    · rw [htree]
      unfold writePayloads at hscan ⊢
      cases hc : t.create (Outputs.ofLog log).ljson with
      | error err => simp [hc] at hscan
      | ok created =>
        obtain ⟨u, l⟩ := created
        exact ⟨u, l, _, rfl, rfl⟩
    · -- What goes wrong after the scan is no fault of a line.
      obtain ⟨hindex, -⟩ | ⟨n, -, hdone⟩ := Work.andThen_eq_error hindex
      · exact (writeIndex_ne_scan _ _ _ hindex).elim
      · cases hdone

/-- Where a scan has failed, no file is at the path of the index exactly if none was there
before and the path of the payload file does not lead there. Without links, it never does,
and what is at the path of the index stays as it was. -/
theorem no_index_of_scan_error_iff (h : (process settings t log).result = .error (.scan e)) :
    let after := (process settings t log).tree
    let outputs := Outputs.ofLog log
    (∀ aim, ¬after.IsFileAt aim outputs.idx ↔
      ¬t.IsFileAt aim outputs.idx ∧
        (t.locate aim outputs.idx = t.locate .creation outputs.ljson →
          ∃ v, t.look aim outputs.idx = some (.device v))) ∧
    (t.IsLinkFree → ∀ aim, after.look aim outputs.idx = t.look aim outputs.idx) := by
  intro after outputs
  obtain ⟨u, l, s, hc, htree⟩ := exists_create_of_scan_error h
  have hafter : after = u.commit l s := htree
  refine ⟨fun aim => ?_, fun hlinks aim => ?_⟩
  · rw [hafter, isFileAt_commit_iff hc s, not_or, not_and, not_forall_not]
  · have hcreates := creates hc
    have hl := hcreates.reaches hlinks (isFileName_ljson _)
    rw [hafter]
    refine look_congr (hcreates.sameBut s) fun hidx => ?_
    have hm := (locate_eq_some_iff hlinks (isFileName_idx _)).1 hidx
    exact hl.ljson_ne_idx hm rfl

def isScanError : Except Failure ScanSummary → Bool
  | .error (.scan _) => true
  | _ => false

theorem isScanError_iff {r : Except Failure ScanSummary} :
    isScanError r = true ↔ ∃ e, r = .error (.scan e) := by
  cases r with
  | ok s => simp [isScanError]
  | error e => cases e <;> simp [isScanError]

/-- Where no earlier run has left an index, a log that is not accepted has none. -/
theorem no_index_of_scan_error_sample :
    let t := sampleTree "[]"
    let w := process .default t sampleLog
    let idx := (Outputs.ofLog sampleLog).idx
    (∃ e, w.result = .error (.scan e)) ∧ ¬w.tree.IsFileAt .target idx ∧
      w.tree.look .entry idx = t.look .entry idx := by
  have hr : isScanError (process .default (sampleTree "[]") sampleLog).result = true := by
    decide +kernel
  have hnone : (sampleTree "[]").look .target (Outputs.ofLog sampleLog).idx = none := by
    decide +kernel
  have hne : (sampleTree "[]").locate .target (Outputs.ofLog sampleLog).idx ≠
      (sampleTree "[]").locate .creation (Outputs.ofLog sampleLog).ljson := by
    decide +kernel
  intro t w idx
  obtain ⟨e, he⟩ := isScanError_iff.1 hr
  obtain ⟨hiff, hlook⟩ := no_index_of_scan_error_iff he
  refine ⟨⟨e, he⟩, (hiff .target).2 ⟨?_, fun heq => absurd heq hne⟩,
    hlook (isLinkFree_sampleTree _) .entry⟩
  rintro ⟨entry, hlook, -⟩
  rw [hnone] at hlook
  cases hlook

/-- What an earlier run has left of a log that was accepted, with the log rewritten so that
it no longer is. -/
def staleTree : Tree :=
  let accepted := sampleTree "[[\x7b\"store\":\x7b\"path\":\"x\"\x7d\x7d]]"
  let earlier := process .default accepted sampleLog
  earlier.tree.put (sampleLog :: fresh.workDir)
    (.file (Utf8.encode "dev server ready\nPHRASEMATCH []\n".toList))

/-- A log that is not accepted can have an index: the one that an earlier run has written. -/
theorem stale_index_of_scan_error :
    let w := process .default staleTree sampleLog
    (∃ e, w.result = .error (.scan e)) ∧
      w.tree.IsFileAt .target (Outputs.ofLog sampleLog).idx ∧
      w.tree.HasFile (Outputs.ofLog sampleLog).idx (Utf8.encode "x\n".toList) := by
  have hr : isScanError (process .default staleTree sampleLog).result = true := by decide +kernel
  intro w
  refine ⟨isScanError_iff.1 hr, ⟨.file (Utf8.encode "x\n".toList), ?_, rfl⟩, false, ?_⟩
  · decide +kernel
  · decide +kernel

end Log

end StoreLog
