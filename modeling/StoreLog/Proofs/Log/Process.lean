-- SUMMARY: The five endings of processing a log in a tree that is plain for it.
import StoreLog.Log.Process
import StoreLog.Proofs.Outputs
import StoreLog.Proofs.Scan.Reference
import StoreLog.Proofs.StoreIndex
import StoreLog.Proofs.Tree.Writing

/-!
# Processing a log in a plain tree

A tree is plain for a log if it has no links, and no device in the place of an output.
The places of the two outputs then differ from the place of the log and from one
another, so the log is scanned as it was before its payload file was created, and
writing the index leaves the payload file alone. What is left of the work is one
of five endings.
-/

namespace StoreLog

open Outputs

/-! ## Places of outputs -/

/-- The paths of the two outputs of a log. -/
def Outputs.paths (log : Path) : List Path :=
  [(ofLog log).ljson, (ofLog log).idx]

namespace Tree

variable {t u : Tree} {log : Path} {e : Bytes} {source l m : Loc}

/-- A path leads to a place where a file can be put. -/
structure IsFilePlace (t : Tree) (q : Path) (l : Loc) : Prop where
  reaches : t.Reaches q l
  notDir : t.entryAt l ≠ some .dir

theorem IsFilePlace.hasRoom {q : Path} (h : t.IsFilePlace q l) : t.HasRoom l :=
  h.reaches.hasRoom h.notDir

/-- The places for files are the same after a file has been put. -/
theorem isFilePlace_put_file {q : Path} {content : Bytes} {x : Bool} :
    (t.put m (.file content x)).IsFilePlace q l ↔ t.IsFilePlace q l := by
  have hdirs := sameDirs_put_file t m content x
  constructor
  · intro ⟨hr, hd⟩
    exact ⟨reaches_put_file.1 hr, mt (hdirs.isDir l).1 hd⟩
  · intro ⟨hr, hd⟩
    exact ⟨reaches_put_file.2 hr, mt (hdirs.isDir l).2 hd⟩

theorem isFileName_output (he : IsEnding e) :
    Path.isFileName (Path.leaf (stem log ++ e)) = true := by
  rw [Path.leaf_append he.slash_not_mem]
  exact he.isFileName_append _

theorem isFileName_ljson (log : Path) :
    Path.isFileName (Path.leaf (Outputs.ofLog log).ljson) = true :=
  isFileName_output isEnding_ljson

theorem isFileName_idx (log : Path) :
    Path.isFileName (Path.leaf (Outputs.ofLog log).idx) = true :=
  isFileName_output isEnding_idx

/-- The place of an output has the name of the output in the directory of the stem. -/
theorem Reaches.output (he : IsEnding e) (h : t.Reaches (stem log ++ e) l) :
    ∃ d, t.directoryOf (stem log) = some d ∧ l = (Path.leaf (stem log) ++ e) :: d := by
  obtain ⟨-, -, d, hd, rfl⟩ := h
  rw [directoryOf_append t he.slash_not_mem] at hd
  exact ⟨d, hd, by rw [Path.leaf_append he.slash_not_mem]⟩

/-- Without links, and without a device in the place of an output. A tree of files and
directories is plain for every log. -/
structure IsPlainFor (t : Tree) (log : Path) : Prop where
  linkFree : t.IsLinkFree
  not_device : ∀ out ∈ Outputs.paths log, ∀ v, t.lookAt out ≠ some (.device v)

theorem exists_isEnding_of_mem_paths {out : Path} (h : out ∈ Outputs.paths log) :
    ∃ e, IsEnding e ∧ out = stem log ++ e := by
  simp only [Outputs.paths, List.mem_cons, List.not_mem_nil, or_false] at h
  rcases h with rfl | rfl
  · exact ⟨_, isEnding_ljson, rfl⟩
  · exact ⟨_, isEnding_idx, rfl⟩

theorem output_mem_paths (he : IsEnding e) : stem log ++ e ∈ Outputs.paths log := by
  rcases he with rfl | rfl
  · exact List.mem_cons_self
  · exact List.mem_cons_of_mem _ List.mem_cons_self

theorem IsPlainFor.put_file (ht : t.IsPlainFor log) (l : Loc) (content : Bytes) (x : Bool) :
    (t.put l (.file content x)).IsPlainFor log where
  linkFree := ht.linkFree.put l rfl
  not_device out hout v h := by
    obtain ⟨e, he, rfl⟩ := exists_isEnding_of_mem_paths hout
    have hname : Path.isFileName (Path.leaf (stem log ++ e)) = true := isFileName_output he
    obtain ⟨m, hm, hdevice⟩ := (lookAt_eq_some_iff (ht.linkFree.put l rfl) hname).1 h
    obtain hsame | hnew := entryAt_put_eq_or t l (.file content x) m
    · exact ht.not_device _ hout v
        ((lookAt_eq_some_iff ht.linkFree hname).2 ⟨m, reaches_put_file.1 hm, hsame ▸ hdevice⟩)
    · cases hnew.symm.trans hdevice

theorem IsPlainFor.of_writes {q : Path} (ht : t.IsPlainFor log) (h : t.Writes q u) :
    u.IsPlainFor log := by
  obtain rfl | ⟨l, content, x, -, -, rfl⟩ := h.eq_or_put
  · exact ht
  · exact ht.put_file l content x

theorem create_output (ht : t.IsPlainFor log) (he : IsEnding e)
    (h : t.create (stem log ++ e) = .ok (u, l)) :
    t.IsFilePlace (stem log ++ e) l ∧ ∃ x, u = t.put l (.file [] x) := by
  have hc := creates h
  have hl := hc.reaches ht.linkFree (isFileName_output he)
  obtain ⟨v, hv, -⟩ | ⟨-, hx⟩ := hc.outcome
  · have hlook := lookAt_eq ht.linkFree (isFileName_output he) hl
    exact absurd (hlook.trans hv) (ht.not_device _ (output_mem_paths he) v)
  · exact ⟨⟨hl, hc.isEnd.not_dir⟩, hx⟩

/-- A log that can be opened is not at the place of an output. -/
theorem ne_output_of_openRead (ht : t.IsLinkFree) (he : IsEnding e)
    (hopen : t.openRead log = .ok source) (hl : t.IsFilePlace (stem log ++ e) l) : source ≠ l := by
  have hfound : t.resolve .target log = .ok (.found source) := by
    unfold openRead at hopen
    split at hopen
    · cases hopen
    · cases hopen
    · next h => exact Except.ok.inj hopen ▸ h
  rintro rfl
  obtain ⟨d, hd, hout⟩ := hl.reaches.output he
  rcases found_cases ht hfound with hdir | ⟨d', hd', ⟨hdots, hplace⟩ | ⟨hname, hplace⟩⟩
  · exact hl.notDir hdir
  · -- The name of a directory above has no extension, so the stem is the whole path.
    have hstem : stem log = log := by
      unfold stem
      split
      · next hx =>
        have := Path.extension?_suffix (by simp [hdots]) (by simp [hdots]) hx
        rw [hdots] at this
        exact absurd this (by decide)
      · rfl
    rw [hstem, hd'] at hd
    have hlen := congrArg List.length (hplace.symm.trans hout)
    rw [← Option.some.inj hd, List.length_tail, List.length_cons] at hlen
    omega
  · have hleaf := (List.cons.inj (hout.symm.trans hplace)).1
    have hne : Path.leaf log ≠ [] ∧ Path.leaf log ≠ [Path.dot] := by
      constructor <;> intro h <;> rw [h] at hname <;> revert hname <;> decide
    exact leaf_stem_append_ne he hne.1 hne.2 hleaf

/-- No payload file is at the place of an index. -/
theorem Reaches.ljson_ne_idx {other : Path} (hl : t.Reaches (stem log ++ ljsonEnding) l)
    (hm : t.Reaches (stem other ++ idxEnding) m) : l ≠ m := by
  obtain ⟨d, -, rfl⟩ := hl.output isEnding_ljson
  obtain ⟨d', -, rfl⟩ := hm.output isEnding_idx
  intro h
  exact append_ljson_ne_append_idx _ _ (List.cons.inj h).1

end Tree

/-! ## Steps -/

namespace Log

open StoreLog.Tree

variable {settings : ScanSettings} {t u : Tree} {log : Path} {source : Loc} {e : IoError}

/-- What is done with the summary of a log. -/
def finish (log : Path) (t : Tree) (s : ScanSummary) : Work Failure ScanSummary :=
  (writeIndex (Outputs.ofLog log).idx s.storePaths t).andThen fun t _ =>
    ⟨t, [processed log (Outputs.ofLog log) s], .ok s⟩

theorem tree_finish (log : Path) (t : Tree) (s : ScanSummary) :
    (finish log t s).tree = (writeIndex (Outputs.ofLog log).idx s.storePaths t).tree :=
  Work.tree_andThen fun _ _ => rfl

theorem result_finish (log : Path) (t : Tree) (s : ScanSummary) :
    (finish log t s).result =
      (writeIndex (Outputs.ofLog log).idx s.storePaths t).result.map fun _ => s :=
  Work.result_andThen fun _ _ => rfl

theorem process_of_openRead_error (settings : ScanSettings) (h : t.openRead log = .error e) :
    process settings t log = ⟨t, [], .error (.io log "open log" e)⟩ := by
  simp only [process, h]

theorem process_of_openRead (settings : ScanSettings) (h : t.openRead log = .ok source) :
    process settings t log =
      (writePayloads settings log (Outputs.ofLog log).ljson source t).andThen (finish log) := by
  simp only [process, h]
  rfl

theorem process_of_create_error (settings : ScanSettings) (h : t.openRead log = .ok source)
    (hc : t.create (Outputs.ofLog log).ljson = .error e) :
    process settings t log = ⟨t, [], .error (.output (Outputs.ofLog log).ljson e)⟩ := by
  simp only [process_of_openRead settings h, writePayloads, hc, Work.andThen]

/-! ## Endings -/

/-- Scanning an open log fails before anything is done, or comes to what the log as it
was before says. -/
theorem writePayloads_cases (settings : ScanSettings) (ht : t.IsPlainFor log)
    (hopen : t.openRead log = .ok source) :
    let ljson := (Outputs.ofLog log).ljson
    let w := writePayloads settings log ljson source t
    (∃ e, w = ⟨t, [], .error (.output ljson e)⟩) ∨
      ∃ l x b r, t.IsFilePlace ljson l ∧
        Scan.reference settings log (t.sourceAt source).lines = (b, r) ∧
        w.tree = t.put l (.file b x) ∧ w.result = r.mapError .scan := by
  intro ljson w
  cases hc : t.create ljson with
  | error e =>
    left
    exact ⟨e, by simp only [w, writePayloads, hc]⟩
  | ok created =>
    obtain ⟨u, l⟩ := created
    obtain ⟨hl, x, rfl⟩ := create_output ht isEnding_ljson hc
    have hroom := hl.hasRoom
    -- The log is read after its payload file was created, but is not that file.
    have hsource : (t.put l (.file [] x)).sourceAt source = t.sourceAt source := by
      refine sourceAt_congr (entryAt_put_ne ?_ _)
      exact ne_output_of_openRead ht.linkFree isEnding_ljson hopen hl
    obtain ⟨hwritten, hresult⟩ := Scan.run_of_isReliable settings log (t.sourceAt source)
      Sink.isReliable_unlimited
    rw [Sink.taken_unlimited, List.nil_append] at hwritten
    obtain ⟨b, r, href⟩ : ∃ b r, Scan.reference settings log (t.sourceAt source).lines = (b, r) :=
      ⟨_, _, rfl⟩
    rw [href] at hwritten hresult
    right
    refine ⟨l, x, b, r, hl, href, ?_, ?_⟩
    · simp only [w, writePayloads, hc, hsource, sinkAt_put hroom, commit_put hroom, hwritten]
    · simp only [w, writePayloads, hc, hsource, sinkAt_put hroom, hresult]

theorem writeIndex_cases (ht : t.IsPlainFor log) (paths : SortedSet Text) :
    let idx := (Outputs.ofLog log).idx
    let w := writeIndex idx paths t
    (∃ e, w = ⟨t, [], .error (.output idx e)⟩) ∨
      ∃ m x, t.IsFilePlace idx m ∧ w.tree = t.put m (.file (StoreIndex.render paths) x) ∧
        w.result = .ok paths.size := by
  intro idx w
  cases hc : t.create idx with
  | error e =>
    left
    exact ⟨e, by simp only [w, writeIndex, hc]⟩
  | ok created =>
    obtain ⟨u, m⟩ := created
    obtain ⟨hm, x, rfl⟩ := create_output ht isEnding_idx hc
    have hroom := hm.hasRoom
    obtain ⟨hwritten, hresult⟩ := StoreIndex.write_of_isReliable paths Sink.isReliable_unlimited
    rw [Sink.taken_unlimited, List.nil_append] at hwritten
    right
    refine ⟨m, x, hm, ?_, ?_⟩
    · simp only [w, writeIndex, hc, sinkAt_put hroom, commit_put hroom, hwritten]
    · simp only [w, writeIndex, hc, sinkAt_put hroom, hresult]
      rfl

/-- How processing a log ends: the tree that it leaves, and its result. -/
inductive Ending (settings : ScanSettings) (log : Path) (t : Tree) :
    Tree → Except Failure ScanSummary → Prop
  /-- The log could not be opened. -/
  | notOpened {e : IoError} (hopen : t.openRead log = .error e) :
      Ending settings log t t (.error (.io log "open log" e))
  /-- The payload file could not be created. -/
  | noPayloadFile {e : IoError} :
      Ending settings log t t (.error (.output (Outputs.ofLog log).ljson e))
  /-- A line of the log was not accepted. -/
  | scanFailed {source : Source} {l : Loc} {x : Bool} {b : Bytes} {e : ScanError}
      (hsource : t.source log = .ok source)
      (hl : t.IsFilePlace (Outputs.ofLog log).ljson l)
      (hscan : Scan.reference settings log source.lines = (b, .error e)) :
      Ending settings log t (t.put l (.file b x)) (.error (.scan e))
  /-- The index could not be created. -/
  | noIndex {source : Source} {l : Loc} {x : Bool} {b : Bytes} {s : ScanSummary} {e : IoError}
      (hsource : t.source log = .ok source)
      (hl : t.IsFilePlace (Outputs.ofLog log).ljson l)
      (hscan : Scan.reference settings log source.lines = (b, .ok s)) :
      Ending settings log t (t.put l (.file b x)) (.error (.output (Outputs.ofLog log).idx e))
  /-- Both outputs were written. -/
  | done {source : Source} {l m : Loc} {x y : Bool} {b : Bytes} {s : ScanSummary}
      (hsource : t.source log = .ok source)
      (hl : t.IsFilePlace (Outputs.ofLog log).ljson l)
      (hscan : Scan.reference settings log source.lines = (b, .ok s))
      (hm : t.IsFilePlace (Outputs.ofLog log).idx m) :
      Ending settings log t
        ((t.put l (.file b x)).put m (.file (StoreIndex.render s.storePaths) y)) (.ok s)

theorem process_ending (settings : ScanSettings) (ht : t.IsPlainFor log) :
    Ending settings log t (process settings t log).tree (process settings t log).result := by
  cases hopen : t.openRead log with
  | error e =>
    rw [process_of_openRead_error settings hopen]
    exact .notOpened hopen
  | ok source =>
    have hsource : t.source log = .ok (t.sourceAt source) := by
      rw [Tree.source, hopen]
      rfl
    rw [process_of_openRead settings hopen]
    obtain ⟨e, hw⟩ | ⟨l, x, b, r, hl, hscan, htree, hresult⟩ :=
      writePayloads_cases settings ht hopen
    · rw [hw]
      exact .noPayloadFile
    · cases r with
      | error e =>
        rw [Work.andThen_of_error hresult, htree]
        exact .scanFailed hsource hl hscan
      | ok s =>
        rw [Work.andThen_of_ok hresult, Work.tree_after, Work.result_after, tree_finish,
          result_finish, htree]
        obtain ⟨e, hw⟩ | ⟨m, y, hm, htree, hresult⟩ :=
          writeIndex_cases (ht.put_file l b x) s.storePaths
        · rw [hw]
          exact .noIndex hsource hl hscan
        · rw [hresult, htree]
          exact .done hsource hl hscan (isFilePlace_put_file.1 hm)

end Log

end StoreLog
