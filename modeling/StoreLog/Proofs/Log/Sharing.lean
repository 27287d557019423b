-- SUMMARY: Outputs that survive a run of several logs, and those that are lost to later ones.
import StoreLog.Proofs.Log.Footprint
import StoreLog.Proofs.Log.Outputs
import StoreLog.Proofs.Log.Policy

/-!
# Logs that share outputs

Different logs can have the same outputs: those of `a` are those of `a.log`. What the
first of them has come to is then lost to the next one. It is lost in no other way, not
even where a log is an output of another one. What a log at some position leaves is
followed from there on, position by position.
-/

namespace StoreLog

open Outputs

/-- So many lines, each with its line feed. -/
def HasLines (content : Bytes) (n : Nat) : Prop :=
  ∃ ls : List Bytes, ls.length = n ∧ (∀ l ∈ ls, lineFeed ∉ l) ∧
    content = ls.flatMap (· ++ [lineFeed])

theorem HasLines.count_lineFeed {content : Bytes} {n : Nat} (h : HasLines content n) :
    content.count lineFeed = n := by
  obtain ⟨ls, rfl, hls, rfl⟩ := h
  induction ls with
  | nil => rfl
  | cons l ls ih =>
    rw [List.forall_mem_cons] at hls
    rw [List.flatMap_cons, List.count_append, List.count_append, ih hls.2,
      List.count_eq_zero_of_not_mem hls.1, List.count_singleton_self, List.length_cons]
    omega

/-! ## Places -/

namespace Tree

variable {t u : Tree} {log other : Path} {l m k : Loc} {e f : Bytes} {P Q : Bytes → Prop}

/-- The payload files of two logs are at one place. Then their indexes are at one, too. -/
def SharesOutputs (t : Tree) (log other : Path) : Prop :=
  t.locate .entry (Outputs.ofLog other).ljson = t.locate .entry (Outputs.ofLog log).ljson

/-- At a place is a file with content of a kind. -/
def Holds (t : Tree) (l : Loc) (P : Bytes → Prop) : Prop :=
  ∃ content x, P content ∧ t.entryAt l = some (.file content x)

theorem Holds.congr (h : t.Holds l P) (hl : u.entryAt l = t.entryAt l) : u.Holds l P := by
  rwa [Holds, hl]

theorem Holds.mono (h : t.Holds l P) (hPQ : ∀ content, P content → Q content) : t.Holds l Q := by
  obtain ⟨content, x, hP, hx⟩ := h
  exact ⟨content, x, hPQ content hP, hx⟩

theorem Holds.hasFile {q : Path} (h : t.Holds l P) (ht : t.IsLinkFree)
    (hq : Path.isFileName (Path.leaf q) = true) (hl : t.Reaches q l) :
    ∃ content, P content ∧ t.HasFile q content := by
  obtain ⟨content, x, hP, hx⟩ := h
  exact ⟨content, hP, hasFile_of_reaches ht hq hl hx⟩

/-- Writing at a path takes no file away. -/
theorem Holds.of_writes {q : Path} (h : t.Holds l P) (hw : t.Writes q u) :
    u.Holds l fun _ => True := by
  obtain ⟨content, x, -, hx⟩ := h
  obtain rfl | ⟨m, written, y, -, -, rfl⟩ := hw.eq_or_put
  · exact ⟨content, x, trivial, hx⟩
  · obtain hl | hl := entryAt_put_eq_or t m (.file written y) l
    · exact ⟨content, x, trivial, hl.trans hx⟩
    · exact ⟨written, y, trivial, hl⟩

theorem sharesOutputs_iff (ht : t.IsLinkFree) (hl : t.Reaches (Outputs.ofLog log).ljson l) :
    t.SharesOutputs log other ↔ t.Reaches (Outputs.ofLog other).ljson l := by
  have hlog : t.locate .entry (Outputs.ofLog log).ljson = some l :=
    (locate_eq_some_iff ht (isFileName_ljson _)).2 hl
  rw [SharesOutputs, hlog]
  exact locate_eq_some_iff ht (isFileName_ljson _)

/-- Where two logs have one output in common, they have the other one in common. -/
theorem Reaches.output_unique (he : IsEnding e) (hf : IsEnding f)
    (hl : t.Reaches (stem log ++ e) l) (hl' : t.Reaches (stem other ++ e) l)
    (hm : t.Reaches (stem log ++ f) m) (hk : t.Reaches (stem other ++ f) k) : k = m := by
  obtain ⟨d, hd, rfl⟩ := hl.output he
  obtain ⟨d', hd', heq⟩ := hl'.output he
  obtain ⟨c, hc, rfl⟩ := hm.output hf
  obtain ⟨c', hc', rfl⟩ := hk.output hf
  obtain ⟨hleaf, rfl⟩ := List.cons.inj heq
  rw [List.append_cancel_right hleaf, Option.some.inj (hc.symm.trans hd),
    Option.some.inj (hc'.symm.trans hd')]

/-- A log whose outputs are where those of another log are files finds no devices there. -/
theorem isPlainFor_of_shares (ht : t.IsLinkFree) (hl : t.Reaches (stem log ++ ljsonEnding) l)
    (hm : t.Reaches (stem log ++ idxEnding) m) (hl' : t.Reaches (stem other ++ ljsonEnding) l)
    (hP : t.Holds l P) (hQ : t.Holds m Q) : t.IsPlainFor other where
  linkFree := ht
  not_device out hout v h := by
    obtain ⟨_, _, -, hfile⟩ := hP
    obtain ⟨_, _, -, hfile'⟩ := hQ
    simp only [Outputs.paths, List.mem_cons, List.not_mem_nil, or_false] at hout
    rcases hout with rfl | rfl
    · obtain ⟨k, hk, hdevice⟩ :=
        (lookAt_eq_some_iff ht (isFileName_ljson _)).1 h
      obtain rfl : k = l := hk.unique hl'
      cases hfile.symm.trans hdevice
    · obtain ⟨k, hk, hdevice⟩ := (lookAt_eq_some_iff ht (isFileName_idx _)).1 h
      obtain rfl : k = m := hl.output_unique isEnding_ljson isEnding_idx hl' hm hk
      cases hfile'.symm.trans hdevice

end Tree

namespace Log

open StoreLog.Tree

variable {settings : ScanSettings} {policy : FailurePolicy} {t u : Tree} {log other : Path}
  {logs : List Path} {report : Report} {s : ScanSummary} {e : Failure} {l m : Loc}
  {P Q : Bytes → Prop}

/-! ## One log -/

theorem hasLines_payloadBytes (settings : ScanSettings) (content : Bytes) :
    let lines := Source.lines { content }
    HasLines (Scan.payloadBytes (Scan.payloads settings lines))
      (Scan.summary settings lines).matchesWritten := by
  intro lines
  refine ⟨(Scan.payloads settings lines).map Utf8.encode, List.length_map _, ?_, ?_⟩
  · intro line hline
    obtain ⟨p, hp, rfl⟩ := List.mem_map.1 hline
    exact Scan.lineFeed_not_mem_of_mem_payloads hp
  · rw [List.flatMap_map]
    rfl

/-- A log that fails changes the place of its payload file at most, and that only once it
is open and the payload file created. -/
theorem entryAt_process_error (ht : t.IsPlainFor log)
    (h : (process settings t log).result = .error e)
    (hl : t.Reaches (Outputs.ofLog log).ljson l →
      ∃ err, e = .io log "open log" err ∨ e = .output (Outputs.ofLog log).ljson err) :
    (process settings t log).tree.entryAt l = t.entryAt l := by
  have hend := process_ending settings ht
  rw [h] at hend
  generalize (process settings t log).tree = u at hend ⊢
  cases hend with
  | notOpened hopen => rfl
  | noPayloadFile => rfl
  | scanFailed hsource hm hscan =>
    refine entryAt_put_ne (fun heq => ?_) _
    obtain ⟨err, he | he⟩ := hl (heq ▸ hm.reaches) <;> cases he
  | noIndex hsource hm hscan =>
    refine entryAt_put_ne (fun heq => ?_) _
    obtain ⟨err, he | he⟩ := hl (heq ▸ hm.reaches)
    · cases he
    · exact absurd (Failure.output.inj he).1.symm (ljson_append_ne_idx _)

/-- A log that is processed has outputs that hold what its summary says. -/
theorem places_of_process_ok (ht : t.IsPlainFor log)
    (h : (process settings t log).result = .ok s) :
    ∃ l m, t.Reaches (Outputs.ofLog log).ljson l ∧ t.Reaches (Outputs.ofLog log).idx m ∧
      (process settings t log).tree.Holds l (HasLines · s.matchesWritten) ∧
      (process settings t log).tree.Holds m (· = StoreIndex.render s.storePaths) := by
  have hend := process_ending settings ht
  rw [h] at hend
  generalize (process settings t log).tree = u at hend ⊢
  cases hend with
  | @done source l m x y b _ hsource hl hscan hm =>
    have hroom : (t.put l (.file b x)).HasRoom m := (isFilePlace_put_file.2 hm).hasRoom
    obtain ⟨content, rfl, -, -, -⟩ := exists_content_of_reference_ok hsource hscan
    obtain ⟨-, rfl, rfl⟩ := Scan.reference_eq_ok_iff.1 hscan
    refine ⟨l, m, hl.reaches, hm.reaches, ?_, _, y, rfl, entryAt_put_self hroom _⟩
    refine ⟨_, x, hasLines_payloadBytes settings content, ?_⟩
    rw [entryAt_put_ne (hl.reaches.ljson_ne_idx hm.reaches), entryAt_put_self hl.hasRoom]

/-- A log whose payload file cannot be created leaves the tree as it is. -/
theorem tree_process_of_create_error {err : IoError} (settings : ScanSettings)
    (h : t.create (Outputs.ofLog log).ljson = .error err) : (process settings t log).tree = t := by
  cases hopen : t.openRead log with
  | error e => rw [process_of_openRead_error settings hopen]
  | ok source => rw [process_of_create_error settings hopen h]

/-- Another log leaves both outputs of a log alone if its payload file is elsewhere. -/
theorem entryAt_process_of_not_shares (settings : ScanSettings) (ht : t.IsLinkFree)
    (hl : t.Reaches (Outputs.ofLog log).ljson l) (hm : t.Reaches (Outputs.ofLog log).idx m)
    (hother : ¬t.Reaches (Outputs.ofLog other).ljson l) :
    (process settings t other).tree.entryAt l = t.entryAt l ∧
      (process settings t other).tree.entryAt m = t.entryAt m := by
  obtain ⟨u, hu, hv⟩ := exists_writes_process settings t other
  have hljson {k : Loc} (hk : ¬t.Reaches (Outputs.ofLog other).ljson k) :
      u.entryAt k = t.entryAt k :=
    hu.entryAt_eq (mt (locate_eq_some_iff ht (isFileName_ljson _)).1 hk)
  have hidx {k : Loc} (hk : ¬t.Reaches (Outputs.ofLog other).idx k) :
      (process settings t other).tree.entryAt k = u.entryAt k := by
    refine hv.entryAt_eq ?_
    rw [hu.locate_eq]
    exact mt (locate_eq_some_iff ht (isFileName_idx _)).1 hk
  refine ⟨(hidx fun h => hl.ljson_ne_idx h rfl).trans (hljson hother), ?_⟩
  by_cases hm' : t.Reaches (Outputs.ofLog other).idx m
  · -- The index would be at one place, so the payload file cannot even be created elsewhere.
    cases hc : t.create (Outputs.ofLog other).ljson with
    | error err => rw [tree_process_of_create_error settings hc]
    | ok created =>
      have hk := (creates hc).reaches ht (isFileName_ljson _)
      exact absurd (hm.output_unique isEnding_idx isEnding_ljson hm' hl hk ▸ hk) hother
  · exact (hidx hm').trans (hljson fun h => h.ljson_ne_idx hm rfl)

/-- What comes of a log may stand in files of two kinds: the lines of its payload file in the
first one, and its index in the second one. A failure leaves the index alone, and the payload
file too if it comes early enough. -/
def Suits (P Q : Bytes → Prop) (log : Path) : Except Failure ScanSummary → Prop
  | .ok s => (∀ content, HasLines content s.matchesWritten → P content) ∧
      Q (StoreIndex.render s.storePaths)
  | .error e => (∃ err, e = .io log "open log" err ∨ e = .output (Outputs.ofLog log).ljson err) ∨
      ∀ content, P content

/-- The outputs of a log stay what they are when another one is processed, if what comes of that
suits them or if it has other outputs. -/
theorem holds_process (ht : t.IsLinkFree) (hl : t.Reaches (Outputs.ofLog log).ljson l)
    (hm : t.Reaches (Outputs.ofLog log).idx m) (h : t.Holds l P ∧ t.Holds m Q)
    (hother : t.Reaches (Outputs.ofLog other).ljson l →
      Suits P Q other (process settings t other).result) :
    (process settings t other).tree.Holds l P ∧ (process settings t other).tree.Holds m Q := by
  obtain ⟨hP, hQ⟩ := h
  by_cases hl' : t.Reaches (Outputs.ofLog other).ljson l
  · have hsuits := hother hl'
    have hplain := isPlainFor_of_shares ht hl hm hl' hP hQ
    cases hr : (process settings t other).result with
    | ok s =>
      rw [hr] at hsuits
      obtain ⟨l', m', hk, hk', hlines, hindex⟩ := places_of_process_ok hplain hr
      obtain rfl := hk.unique hl'
      obtain rfl := hl.output_unique isEnding_ljson isEnding_idx hl' hm hk'
      exact ⟨hlines.mono hsuits.1, hindex.mono fun _ heq => heq ▸ hsuits.2⟩
    | error e =>
      rw [hr] at hsuits
      refine ⟨?_, hQ.congr (entryAt_process_error hplain hr fun hm' => ?_)⟩
      · obtain hearly | hany := hsuits
        · exact hP.congr (entryAt_process_error hplain hr fun _ => hearly)
        · obtain ⟨u, hu, hv⟩ := exists_writes_process settings t other
          exact ((hP.of_writes hu).of_writes hv).mono fun content _ => hany content
      · exact absurd rfl (hm'.ljson_ne_idx hm)
  · obtain ⟨hleft, hright⟩ := entryAt_process_of_not_shares settings ht hl hm hl'
    exact ⟨hP.congr hleft, hQ.congr hright⟩

/-! ## Several logs -/

theorem sameDirs_treeAfter (settings : ScanSettings) (t : Tree) (logs : List Path) (n : Nat) :
    SameDirs t (treeAfter settings t logs n) :=
  treeAfter_induct (P := SameDirs t) (Nat.zero_le n) (.refl t) fun _ other _ _ h =>
    h.trans (sameDirs_process settings _ other)

theorem isLinkFree_treeAfter (settings : ScanSettings) (ht : t.IsLinkFree) (logs : List Path)
    (n : Nat) : (treeAfter settings t logs n).IsLinkFree :=
  treeAfter_induct (Nat.zero_le n) ht fun _ other _ _ h => isLinkFree_process settings other h

theorem isPlainFor_treeAfter (settings : ScanSettings) (ht : t.IsPlainFor log) (logs : List Path)
    (n : Nat) : (treeAfter settings t logs n).IsPlainFor log :=
  treeAfter_induct (P := (·.IsPlainFor log)) (Nat.zero_le n) ht fun _ other _ _ h =>
    isPlainFor_process settings other h

/-- The outputs of a log stay what they are from a position on if what comes of the logs there
that share them suits them. -/
theorem holds_treeAfter {i n : Nat} (ht : t.IsLinkFree)
    (hl : t.Reaches (Outputs.ofLog log).ljson l) (hm : t.Reaches (Outputs.ofLog log).idx m)
    (hin : i ≤ n)
    (h : (treeAfter settings t logs i).Holds l P ∧ (treeAfter settings t logs i).Holds m Q)
    (hothers : ∀ j other r, i ≤ j → resultAt settings t logs j = some (other, r) →
      t.SharesOutputs log other → Suits P Q other r) :
    (treeAfter settings t logs n).Holds l P ∧ (treeAfter settings t logs n).Holds m Q := by
  refine treeAfter_induct (P := fun u => u.Holds l P ∧ u.Holds m Q) hin h
    fun j other hj hother hholds => ?_
  have hdirs := sameDirs_treeAfter settings t logs j
  refine holds_process (isLinkFree_treeAfter settings ht logs j) ((reaches_congr hdirs).1 hl)
    ((reaches_congr hdirs).1 hm) hholds fun hshare => ?_
  exact hothers j other _ hj (resultAt_of_getElem? hother)
    ((sharesOutputs_iff ht hl).2 ((reaches_congr hdirs).2 hshare))

/-- A processed log has a position, and from any such position on: it has the index of its store
paths in the end unless a later log with the same outputs was processed and has others. Its
payload file has as many lines as matches were written unless a later log with the same outputs
has written to it, and not come to as many. -/
theorem outputs_of_processAll_ok (ht : t.IsPlainFor log)
    (h : (processAll settings policy t logs).result = .ok report)
    (hmem : (log, s) ∈ report.processed) :
    let after := (processAll settings policy t logs).tree
    let outputs := Outputs.ofLog log
    (∃ i, resultAt settings t logs i = some (log, .ok s)) ∧
    ∀ i, resultAt settings t logs i = some (log, .ok s) →
      ((∀ j other s', i < j → resultAt settings t logs j = some (other, .ok s') →
          t.SharesOutputs log other → s'.storePaths = s.storePaths) →
        after.HasFile outputs.idx (StoreIndex.write s.storePaths .unlimited).1.written) ∧
      ((∀ j other r, i < j → resultAt settings t logs j = some (other, r) →
          t.SharesOutputs log other →
          (∀ s', r = .ok s' → s'.matchesWritten = s.matchesWritten) ∧
          ∀ e, r = .error e → ∃ err,
            e = .io other "open log" err ∨ e = .output (Outputs.ofLog other).ljson err) →
        ∃ content, HasLines content s.matchesWritten ∧ after.HasFile outputs.ljson content) := by
  intro after outputs
  obtain ⟨⟨is, js, hdivides⟩, htree⟩ := exists_divides_of_eq_ok h
  refine ⟨hdivides.exists_resultAt hmem, fun i hi => ?_⟩
  obtain ⟨hlog, hr⟩ := resultAt_eq_some hi
  have hafter : after = treeAfter settings t logs logs.length := htree
  have hlinks : after.IsLinkFree := hafter ▸ isLinkFree_treeAfter settings ht.linkFree logs _
  have hdirs : SameDirs t after := hafter ▸ sameDirs_treeAfter settings t logs _
  -- What the log leaves is what the logs after it begin with.
  obtain ⟨l, m, hlu, hmu, hlines, hindex⟩ :=
    places_of_process_ok (isPlainFor_treeAfter settings ht logs i) hr
  rw [← treeAfter_of_getElem? hlog] at hlines hindex
  have hdirs' := sameDirs_treeAfter settings t logs i
  have hl := (reaches_congr hdirs').2 hlu
  have hm := (reaches_congr hdirs').2 hmu
  have hlast : i + 1 ≤ logs.length := (List.getElem?_eq_some_iff.1 hlog).1
  constructor
  · intro hothers
    obtain ⟨-, hend⟩ := holds_treeAfter (P := fun _ => True) ht.linkFree hl hm hlast
      ⟨hlines.mono fun _ _ => trivial, hindex⟩ fun j other r hj hother hshare => by
        cases r with
        | ok s' => exact ⟨fun _ _ => trivial, congrArg _ (hothers j other s' hj hother hshare)⟩
        | error e => exact .inr fun _ => trivial
    rw [← hafter] at hend
    obtain ⟨_, rfl, hfile⟩ :=
      hend.hasFile hlinks (isFileName_idx _) ((reaches_congr hdirs).1 hm)
    rwa [StoreIndex.written_write_unlimited]
  · intro hothers
    obtain ⟨hend, -⟩ := holds_treeAfter (Q := fun _ => True) ht.linkFree hl hm hlast
      ⟨hlines, hindex.mono fun _ _ => trivial⟩ fun j other r hj hother hshare => by
        obtain ⟨hok, herror⟩ := hothers j other r hj hother hshare
        cases r with
        | ok s' => exact ⟨fun _ hcontent => hok s' rfl ▸ hcontent, trivial⟩
        | error e => exact .inl (herror e rfl)
    rw [← hafter] at hend
    exact hend.hasFile hlinks (isFileName_ljson _) ((reaches_congr hdirs).1 hl)

/-! ## Two logs with the same outputs -/

def bareLog : Path := Path.ofText ['a']

def respelledLog : Path := Path.ofText ['.', '/', 'a', '.', 'l', 'o', 'g']

/-- A fresh tree with two logs that share outputs and have different payloads. -/
def sharingTree : Tree :=
  let naming (paths : List Text) := (StoreIndex.logNaming paths).content
  (fresh.put (bareLog :: fresh.workDir) (.file (naming [['x']] ++ naming [['x']]))).put
    (sampleLog :: fresh.workDir) (.file (naming [['y'], ['z']]))

theorem isPlainFor_sharingTree (log : Path)
    (h : ∀ out ∈ Outputs.paths log, sharingTree.lookAt out = none) :
    sharingTree.IsPlainFor log :=
  isPlainFor_of_lookAt_eq_none ((isLinkFree_fresh.put _ rfl).put _ rfl) h

/-- A processed log with its store paths and its number of matches. -/
def digest (p : Path × ScanSummary) : Path × List Text × Nat :=
  (p.1, p.2.storePaths.toList, p.2.matchesWritten)

theorem outputs_of_processAll_ok_respelled :
    let logs := [sampleLog, respelledLog]
    let w := processAll .default .failFast sharingTree logs
    let outputs := Outputs.ofLog sampleLog
    sharingTree.IsPlainFor sampleLog ∧ sharingTree.SharesOutputs sampleLog respelledLog ∧
      ∃ report s, w.result = .ok report ∧ (sampleLog, s) ∈ report.processed ∧
        w.tree.HasFile outputs.idx (StoreIndex.write s.storePaths .unlimited).1.written ∧
        ∃ content, HasLines content s.matchesWritten ∧ w.tree.HasFile outputs.ljson content := by
  have hprocessed : (processAll .default .failFast sharingTree
      [sampleLog, respelledLog]).result.toOption.map (·.processed.map digest) =
      some [(sampleLog, [['y'], ['z']], 1), (respelledLog, [['y'], ['z']], 1)] := by
    decide +kernel
  have hresults : ∀ j < 2, (resultAt .default sharingTree [sampleLog, respelledLog] j).bind
      (fun p => p.2.toOption.map fun s => (digest (p.1, s)).2) = some ([['y'], ['z']], 1) := by
    decide +kernel
  have hshares : sharingTree.SharesOutputs sampleLog respelledLog := by
    unfold SharesOutputs
    decide +kernel
  have hplain : sharingTree.IsPlainFor sampleLog := isPlainFor_sharingTree _ (by decide +kernel)
  intro logs w outputs
  have hsame {j : Nat} {other : Path} {r : Except Failure ScanSummary}
      (h : resultAt .default sharingTree logs j = some (other, r)) :
      ∃ s, r = .ok s ∧ s.storePaths.toList = [['y'], ['z']] ∧ s.matchesWritten = 1 := by
    have hj : j < 2 := (List.getElem?_eq_some_iff.1 (resultAt_eq_some h).1).1
    have hdigest := hresults j hj
    rw [h, Option.bind_some] at hdigest
    obtain ⟨s, hs, hpair⟩ := Option.map_eq_some_iff.1 hdigest
    obtain ⟨hpaths, hmatches⟩ := Prod.mk.inj hpair
    cases r with
    | ok s' => exact ⟨s', rfl, Option.some.inj hs ▸ hpaths, Option.some.inj hs ▸ hmatches⟩
    | error e => cases hs
  obtain ⟨report, hreport, hdigest⟩ := exists_ok_of_toOption_map hprocessed
  obtain ⟨⟨_, s⟩, hmem, hs⟩ : ∃ p ∈ report.processed, digest p = (sampleLog, [['y'], ['z']], 1) :=
    List.mem_map.1 (hdigest ▸ List.mem_cons_self)
  obtain ⟨rfl, -⟩ := Prod.mk.inj hs
  obtain ⟨⟨i, hi⟩, hall⟩ := outputs_of_processAll_ok hplain hreport hmem
  obtain ⟨_, ⟨rfl⟩, hpaths, hmatches⟩ := hsame hi
  obtain ⟨hindex, hlines⟩ := hall i hi
  refine ⟨hplain, hshares, report, s, hreport, hmem, hindex fun j other s' _ hj _ => ?_,
    hlines fun j other r _ hj _ => ?_⟩
  · obtain ⟨_, ⟨rfl⟩, hpaths', -⟩ := hsame hj
    exact SortedSet.ext_toList (hpaths'.trans hpaths.symm)
  · obtain ⟨_, rfl, -, hmatches'⟩ := hsame hj
    refine ⟨fun s' hs' => ?_, nofun⟩
    rw [← Except.ok.inj hs', hmatches', hmatches]

/-- What one of two different logs has come to is lost to the other, which has the same
outputs. -/
theorem outputs_lost_to_other :
    let logs := [bareLog, sampleLog]
    let w := processAll .default .failFast sharingTree logs
    let outputs := Outputs.ofLog bareLog
    (∀ log ∈ logs, sharingTree.IsPlainFor log) ∧ logs.Nodup ∧
      ∃ report s, w.result = .ok report ∧ (bareLog, s) ∈ report.processed ∧
        ¬w.tree.HasFile outputs.idx (StoreIndex.write s.storePaths .unlimited).1.written ∧
        ¬∃ content, HasLines content s.matchesWritten ∧ w.tree.HasFile outputs.ljson content := by
  have hprocessed : (processAll .default .failFast sharingTree
      [bareLog, sampleLog]).result.toOption.map (·.processed.map digest) =
      some [(bareLog, [['x']], 2), (sampleLog, [['y'], ['z']], 1)] := by
    decide +kernel
  intro logs w outputs
  have hidx : w.tree.lookAt outputs.idx = some (.file (Utf8.encode "y\nz\n".toList) false) := by
    decide +kernel
  have hljson : w.tree.lookAt outputs.ljson =
      some (.file (Utf8.encode (Payload.render [⟨⟨['y']⟩⟩, ⟨⟨['z']⟩⟩] ++ ['\n'])) false) := by
    decide +kernel
  obtain ⟨report, hreport, hdigest⟩ := exists_ok_of_toOption_map hprocessed
  obtain ⟨⟨_, s⟩, hmem, hs⟩ : ∃ p ∈ report.processed, digest p = (bareLog, [['x']], 2) :=
    List.mem_map.1 (hdigest ▸ List.mem_cons_self)
  obtain ⟨rfl, hs⟩ := Prod.mk.inj hs
  obtain ⟨hpaths, hmatches⟩ := Prod.mk.inj hs
  have hnone : ∀ log ∈ logs, ∀ out ∈ Outputs.paths log, sharingTree.lookAt out = none := by
    decide +kernel
  refine ⟨fun log hlog => isPlainFor_sharingTree log (hnone log hlog), by decide, report, s,
    hreport, hmem, ?_, ?_⟩
  · rintro ⟨x, hx⟩
    rw [hidx, StoreIndex.written_write_unlimited, StoreIndex.render, hpaths] at hx
    revert hx
    cases x <;> decide +kernel
  · rintro ⟨content, hcontent, x, hx⟩
    obtain ⟨rfl, -⟩ := Entry.file.inj (Option.some.inj (hx.symm.trans hljson))
    have htwo := hcontent.count_lineFeed.trans hmatches
    revert htwo
    decide +kernel

end Log

end StoreLog
