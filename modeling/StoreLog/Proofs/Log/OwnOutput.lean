-- SUMMARY: When a log keeps its content, in trees that have links.
import StoreLog.Proofs.Log.StaleIndex

/-!
# A log that is its own output

Creating an output empties the file to which its path leads, and no one asks which file
that is. In a tree with links it can be the log, which is open by then but not yet read.
Unless an output path leads to it, a log keeps its content.
-/

namespace StoreLog

open StoreLog.Tree Outputs

namespace Tree

variable {t : Tree} {log q : Path} {l : Loc} {content : Bytes} {x : Bool}

/-- Without links, no output path leads to the log. -/
theorem locate_output_ne (ht : t.IsLinkFree) {e : Bytes} (he : IsEnding e)
    (hopen : t.openRead log = .ok l) (hfile : t.entryAt l = some (.file content x)) :
    t.locate .creation (stem log ++ e) ≠ some l := by
  intro h
  have hreaches := (locate_eq_some_iff ht (isFileName_output he)).1 h
  exact ne_output_of_openRead ht he hopen ⟨hreaches, (hasRoom_of_file hfile).not_dir⟩ rfl

end Tree

namespace Log

variable {settings : ScanSettings} {t : Tree} {log q : Path} {source l : Loc} {content : Bytes}
  {x : Bool} {s : ScanSummary} {e : Failure}

/-! ## Outputs that lead to a file that is there -/

/-- A payload file that is the source itself has been emptied when it is read, so nothing is
found in it. -/
theorem writePayloads_source (settings : ScanSettings) (log : Path)
    (hl : t.locate .creation q = some l) (hfile : t.entryAt l = some (.file content x)) :
    (writePayloads settings log q l t).tree = t.put l (.file [] x) ∧
      (writePayloads settings log q l t).result = .ok {} := by
  have hroom := hasRoom_of_file hfile
  have hsource : (t.put l (.file [] x)).sourceAt l = { content := [] } := by
    rw [sourceAt, entryAt_put_self hroom]
  rw [writePayloads, create_of_locate hl hfile]
  simp only [sinkAt_put hroom, hsource]
  exact ⟨commit_put hroom _, rfl⟩

theorem writeIndex_file (paths : SortedSet Text) (hl : t.locate .creation q = some l)
    (hfile : t.entryAt l = some (.file content x)) :
    (writeIndex q paths t).tree = t.put l (.file (StoreIndex.render paths) x) ∧
      (writeIndex q paths t).result = .ok paths.size := by
  have hroom := hasRoom_of_file hfile
  have hcount := (StoreIndex.write_of_isReliable paths Sink.isReliable_unlimited).2
  rw [writeIndex, create_of_locate hl hfile]
  simp only [sinkAt_put hroom, hcount]
  refine ⟨?_, rfl⟩
  rw [commit_put hroom, StoreIndex.written_write_unlimited]

theorem entryAt_writeIndex (paths : SortedSet Text) (hfile : t.entryAt l = some (.file content x)) :
    (writeIndex q paths t).tree.entryAt l =
      if t.locate .creation q = some l then some (.file (StoreIndex.render paths) x)
      else some (.file content x) := by
  split
  · next hl =>
    rw [(writeIndex_file paths hl hfile).1, entryAt_put_self (hasRoom_of_file hfile)]
  · next hl => rw [(writes_writeIndex q paths t).entryAt_eq hl, hfile]

/-! ## The log -/

/-- Processing an open log goes no further than its payload file if that fails. -/
theorem process_of_payloads_error (hopen : t.openRead log = .ok source)
    (h : (writePayloads settings log (Outputs.ofLog log).ljson source t).result = .error e) :
    (process settings t log).tree =
        (writePayloads settings log (Outputs.ofLog log).ljson source t).tree ∧
      (process settings t log).result = .error e := by
  rw [process_of_openRead settings hopen, Work.andThen_of_error h]
  exact ⟨rfl, rfl⟩

theorem process_of_payloads_ok (hopen : t.openRead log = .ok source)
    (h : (writePayloads settings log (Outputs.ofLog log).ljson source t).result = .ok s) :
    let w := writeIndex (Outputs.ofLog log).idx s.storePaths
      (writePayloads settings log (Outputs.ofLog log).ljson source t).tree
    (process settings t log).tree = w.tree ∧
      (process settings t log).result = w.result.map fun _ => s := by
  rw [process_of_openRead settings hopen, Work.andThen_of_ok h]
  exact ⟨tree_finish .., result_finish ..⟩

/-- A log keeps its content unless an output path leads to it, which without links none does.
It is empty afterwards if the path of the payload file leads there. If that of the index does
and the other one does not, it holds the index after a success and is as before after a
failure. -/
theorem entryAt_log_of_process (hopen : t.openRead log = .ok l)
    (hfile : t.entryAt l = some (.file content x)) :
    let w := process settings t log
    let outputs := Outputs.ofLog log
    (t.locate .creation outputs.ljson ≠ some l → t.locate .creation outputs.idx ≠ some l →
      w.tree.entryAt l = some (.file content x)) ∧
    (t.IsLinkFree →
      t.locate .creation outputs.ljson ≠ some l ∧ t.locate .creation outputs.idx ≠ some l) ∧
    (t.locate .creation outputs.ljson = some l → w.tree.entryAt l = some (.file [] x)) ∧
    (t.locate .creation outputs.ljson ≠ some l → t.locate .creation outputs.idx = some l →
      (∀ s, w.result = .ok s →
        w.tree.entryAt l = some (.file (StoreIndex.render s.storePaths) x)) ∧
      ∀ e, w.result = .error e → w.tree.entryAt l = some (.file content x)) := by
  intro w outputs
  have hwrites : t.Writes outputs.ljson (writePayloads settings log outputs.ljson l t).tree :=
    writes_writePayloads settings log outputs.ljson l t
  -- The path of the index leads where it led before, for the payload file is no part of a way.
  have hlocate := hwrites.locate_eq .creation outputs.idx
  refine ⟨fun hl hi => ?_, fun hlinks => ?_, fun hl => ?_, fun hl hi => ?_⟩
  · obtain ⟨u, hu, hv⟩ := exists_writes_process settings t log
    have hiu : u.locate .creation outputs.idx ≠ some l := by
      rwa [hu.locate_eq]
    rw [hv.entryAt_eq hiu, hu.entryAt_eq hl, hfile]
  · exact ⟨locate_output_ne hlinks isEnding_ljson hopen hfile,
      locate_output_ne hlinks isEnding_idx hopen hfile⟩
  · obtain ⟨htree, hresult⟩ := writePayloads_source settings log hl hfile
    have hempty : (writePayloads settings log outputs.ljson l t).tree.entryAt l =
        some (.file [] x) := by
      rw [htree, entryAt_put_self (hasRoom_of_file hfile)]
    -- The index of an empty log is empty, so writing it there as well makes no difference.
    rw [(process_of_payloads_ok hopen hresult).1, entryAt_writeIndex _ hempty]
    exact ite_self _
  · have hkept := (hwrites.entryAt_eq hl).trans hfile
    cases hp : (writePayloads settings log outputs.ljson l t).result with
    | error e =>
      obtain ⟨htree, hresult⟩ := process_of_payloads_error hopen hp
      refine ⟨fun s hs => ?_, fun _ _ => htree ▸ hkept⟩
      cases hs.symm.trans hresult
    | ok s =>
      obtain ⟨htree, hresult⟩ := process_of_payloads_ok hopen hp
      rw [(writeIndex_file _ (hlocate.trans hi) hkept).2] at hresult
      refine ⟨fun s' hs => ?_, fun e he => ?_⟩
      · obtain rfl := Except.ok.inj (hs.symm.trans hresult)
        rw [htree, entryAt_writeIndex _ hkept, if_pos (hlocate.trans hi)]
      · cases he.symm.trans hresult

def acceptedContent : Bytes :=
  Utf8.encode "dev server ready\nPHRASEMATCH [[\x7b\"store\":\x7b\"path\":\"x\"\x7d\x7d]]\n".toList

/-- With a link beside the log. -/
def linkedTree (link target : Path) : Tree :=
  acceptedTree.put (link :: fresh.workDir) (.link target)

/-- A link that leads elsewhere does the log no harm; one from the index makes it the index. -/
theorem entryAt_log_of_process_linked :
    let outputs := Outputs.ofLog sampleLog
    let place := sampleLog :: fresh.workDir
    let apart := linkedTree outputs.ljson (Path.ofText ['b'])
    let within := linkedTree outputs.idx sampleLog
    (process .default apart sampleLog).tree.entryAt place = some (.file acceptedContent) ∧
      ∃ s, (process .default within sampleLog).result = .ok s ∧
        (process .default within sampleLog).tree.entryAt place =
          some (.file (StoreIndex.render s.storePaths)) := by
  have hone : (process .default (linkedTree (Outputs.ofLog sampleLog).idx sampleLog)
      sampleLog).result.toOption.map (·.matchesWritten) = some 1 := by decide +kernel
  obtain ⟨s, hs, -⟩ := exists_ok_of_toOption_map hone
  intro outputs place apart within
  have hapart : apart.openRead sampleLog = .ok place ∧
      apart.entryAt place = some (.file acceptedContent) :=
    ⟨by decide +kernel, by decide +kernel⟩
  have hwithin : within.openRead sampleLog = .ok place ∧
      within.entryAt place = some (.file acceptedContent) :=
    ⟨by decide +kernel, by decide +kernel⟩
  obtain ⟨hkept, -⟩ := entryAt_log_of_process hapart.1 hapart.2
  obtain ⟨-, -, -, hindex⟩ := entryAt_log_of_process hwithin.1 hwithin.2
  exact ⟨hkept (by decide +kernel) (by decide +kernel), s, hs,
    (hindex (by decide +kernel) (by decide +kernel)).1 s hs⟩

/-- A log is lost if the path of its payload file leads to it. -/
theorem log_lost_of_linked_output :
    let t := linkedTree (Outputs.ofLog sampleLog).ljson sampleLog
    let w := process .default t sampleLog
    let place := sampleLog :: fresh.workDir
    t.openRead sampleLog = .ok place ∧
      t.entryAt place = some (.file acceptedContent) ∧ acceptedContent ≠ [] ∧
      w.result.toOption.isSome = true ∧ w.tree.entryAt place = some (.file []) := by
  refine ⟨?_, ?_, ?_, ?_, ?_⟩
  all_goals decide +kernel

end Log

end StoreLog
