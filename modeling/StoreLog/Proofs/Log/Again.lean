-- SUMMARY: A log that is processed twice comes to the same, and to the same tree.
import StoreLog.Proofs.Log.Footprint
import StoreLog.Proofs.Log.Outputs

/-!
# Processing a log again

Without links, neither output is at the place of the log or of the other one, so a second run
reads the log that the first one has read, and creates its outputs where they are. It comes to
the same end as the first run, whichever this is, and leaves the tree as it has found it.
-/

namespace StoreLog

open StoreLog.Tree Outputs

namespace Log

variable {settings : ScanSettings} {t u v : Tree} {log q : Path} {source l m : Loc}

/-! ## One output -/

/-- An index that is written again is as it was. -/
theorem writeIndex_writeIndex (ht : t.IsLinkFree) (hq : Path.isFileName (Path.leaf q) = true)
    (paths : SortedSet Text) :
    writeIndex q paths (writeIndex q paths t).tree = writeIndex q paths t := by
  cases hc : t.create q with
  | error e =>
    have hw : writeIndex q paths t = ⟨t, [], .error (.output q e)⟩ := by
      simp only [writeIndex, hc]
    rw [hw]
    exact hw
  | ok created =>
    obtain ⟨u, l⟩ := created
    let r := StoreIndex.write paths (u.sinkAt l)
    have hw : writeIndex q paths t = ⟨u.commit l r.1, [], r.2.mapError (.output q)⟩ := by
      simp only [writeIndex, hc, r]
    have hfree : (u.commit l r.1).IsLinkFree := (Writes.commit hc r.1).isLinkFree ht
    obtain ⟨v, hagain, hsink, hcommit, -⟩ :=
      create_again ht hq hc r.1 hfree ((creates hc).sameBut r.1).sameDirs rfl
    rw [hw, writeIndex, hagain]
    simp only [hsink, r, hcommit]

theorem finish_finish (ht : t.IsLinkFree) (s : ScanSummary) :
    finish log (finish log t s).tree s = finish log t s := by
  rw [tree_finish, finish, writeIndex_writeIndex ht (isFileName_idx log), finish]

/-- A later tree in which the log is as it was before it was scanned in `t`, and the payload
file as it was afterwards. -/
structure HoldsScan (settings : ScanSettings) (log : Path) (t : Tree) (source l : Loc)
    (v : Tree) : Prop where
  linkFree : v.IsLinkFree
  sameDirs : SameDirs t v
  opens : v.openRead log = .ok source
  log_eq : v.entryAt source = t.entryAt source
  ljson_eq : v.entryAt l =
    (writePayloads settings log (Outputs.ofLog log).ljson source t).tree.entryAt l

theorem HoldsScan.of_sameBut (h : HoldsScan settings log t source l u) (hv : v.IsLinkFree)
    (hsame : SameBut u v m) (hsource : source ≠ m) (hl : l ≠ m) :
    HoldsScan settings log t source l v where
  linkFree := hv
  sameDirs := h.sameDirs.trans hsame.sameDirs
  opens := openRead_of_sameBut hsame hsource h.opens
  log_eq := (hsame.entryAt_ne source hsource).trans h.log_eq
  ljson_eq := (hsame.entryAt_ne l hl).trans h.ljson_eq

/-- A log that is scanned again has the same payloads, and its payload file is as it was. -/
theorem writePayloads_again (ht : t.IsLinkFree)
    (hc : t.create (Outputs.ofLog log).ljson = .ok (u, l)) (hsource : source ≠ l)
    (hv : HoldsScan settings log t source l v) :
    writePayloads settings log (Outputs.ofLog log).ljson source v =
      { writePayloads settings log (Outputs.ofLog log).ljson source t with tree := v } := by
  let scan := Scan.run settings log (t.sourceAt source) (u.sinkAt l)
  have hread : u.sourceAt source = t.sourceAt source :=
    sourceAt_congr (entryAt_of_create hc hsource)
  have hw : writePayloads settings log (Outputs.ofLog log).ljson source t =
      ⟨u.commit l scan.sink, scan.events, scan.result.mapError .scan⟩ := by
    simp only [writePayloads, hc, hread, scan]
  have hl := hv.ljson_eq
  rw [hw] at hl
  obtain ⟨v', hagain, hsink, hcommit, hrest⟩ :=
    create_again ht (isFileName_ljson log) hc scan.sink hv.linkFree hv.sameDirs hl
  have hread' : v'.sourceAt source = t.sourceAt source :=
    sourceAt_congr ((hrest source hsource).trans hv.log_eq)
  rw [hw, writePayloads, hagain]
  simp only [hread', hsink, scan, hcommit]

/-! ## Both outputs -/

theorem holdsScan_writePayloads (settings : ScanSettings) (ht : t.IsLinkFree)
    (hopen : t.openRead log = .ok source) (hc : t.create (Outputs.ofLog log).ljson = .ok (u, l))
    (hsource : source ≠ l) :
    HoldsScan settings log t source l
      (writePayloads settings log (Outputs.ofLog log).ljson source t).tree := by
  have hwrites := writes_writePayloads settings log (Outputs.ofLog log).ljson source t
  have hsame :
      SameBut t (writePayloads settings log (Outputs.ofLog log).ljson source t).tree l := by
    simp only [writePayloads, hc]
    exact (creates hc).sameBut _
  exact
    { linkFree := hwrites.isLinkFree ht
      sameDirs := hsame.sameDirs
      opens := openRead_of_sameBut hsame hsource hopen
      log_eq := hsame.entryAt_ne source hsource
      ljson_eq := rfl }

/-- Writing the index takes nothing away that the scan has left. -/
theorem HoldsScan.finish (h : HoldsScan settings log t source l u)
    (hl : t.Reaches (Outputs.ofLog log).ljson l) (s : ScanSummary) :
    HoldsScan settings log t source l (Log.finish log u s).tree := by
  have hwrites := writes_writeIndex (Outputs.ofLog log).idx s.storePaths u
  rw [tree_finish]
  obtain hv | ⟨m, hlocate, hsame⟩ := hwrites.sameBut
  · rwa [hv]
  · have hm := (locate_eq_some_iff h.linkFree (isFileName_idx log)).1 hlocate
    have hne : l ≠ m := ((reaches_congr h.sameDirs).1 hl).ljson_ne_idx hm
    have hsource : source ≠ m :=
      ne_output_of_openRead h.linkFree isEnding_idx h.opens ⟨hm, hsame.isEnd.not_dir⟩
    exact h.of_sameBut (hwrites.isLinkFree h.linkFree) hsame hsource hne

theorem process_of_holdsScan (ht : t.IsLinkFree)
    (hc : t.create (Outputs.ofLog log).ljson = .ok (u, l)) (hsource : source ≠ l)
    (hv : HoldsScan settings log t source l v) :
    process settings v log =
      Work.andThen { writePayloads settings log (Outputs.ofLog log).ljson source t with tree := v }
        (finish log) := by
  rw [process_of_openRead settings hv.opens, writePayloads_again ht hc hsource hv]

/-- A second run right after a first one has the same result, and it leaves the tree as the
first one has left it. -/
theorem process_process (settings : ScanSettings) (log : Path) (ht : t.IsLinkFree) :
    process settings (process settings t log).tree log = process settings t log := by
  cases hopen : t.openRead log with
  | error e =>
    have hw := process_of_openRead_error settings hopen
    rw [hw]
    exact hw
  | ok source =>
    have hfirst := process_of_openRead settings hopen
    cases hc : t.create (Outputs.ofLog log).ljson with
    | error e =>
      have hw := process_of_create_error settings hopen hc
      rw [hw]
      exact hw
    | ok created =>
      obtain ⟨u, l⟩ := created
      have hl := (creates hc).reaches ht (isFileName_ljson log)
      have hsource : source ≠ l :=
        ne_output_of_openRead ht isEnding_ljson hopen ⟨hl, (creates hc).isEnd.not_dir⟩
      have hholds := holdsScan_writePayloads settings ht hopen hc hsource
      cases hr : (writePayloads settings log (Outputs.ofLog log).ljson source t).result with
      | error e =>
        rw [hfirst, Work.andThen_of_error hr, process_of_holdsScan ht hc hsource hholds]
        exact Work.andThen_of_error hr (finish log)
      | ok s =>
        rw [hfirst, Work.andThen_of_ok hr, Work.tree_after,
          process_of_holdsScan ht hc hsource (hholds.finish hl s)]
        simp only [Work.andThen, hr, finish_finish hholds.linkFree]

/-- The first run fails after a payload that it has written; the second one keeps it. -/
theorem process_process_partial :
    let t := sampleTree "[[\x7b\"store\":\x7b\"path\":\"x\"\x7d\x7d]]\nPHRASEMATCH []"
    let w := process .default t sampleLog
    t.IsLinkFree ∧ w.result.isOk = false ∧
      w.tree.HasFile (Outputs.ofLog sampleLog).ljson
        (Utf8.encode "[[\x7b\"store\":\x7b\"path\":\"x\"\x7d\x7d]]\n".toList) ∧
      process .default w.tree sampleLog = w := by
  intro t w
  have ht : t.IsLinkFree := isLinkFree_sampleTree _
  exact ⟨ht, by decide +kernel, ⟨false, by decide +kernel⟩, process_process .default sampleLog ht⟩

end Log

end StoreLog
